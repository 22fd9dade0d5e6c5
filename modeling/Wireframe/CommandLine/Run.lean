import Wireframe.CommandLine.Arguments
import Wireframe.Compilation.Json
import Wireframe.Diagnostic.Report
import Wireframe.Files.Host
import Wireframe.Settings
import Wireframe.Style.Shorthand

/-! Running a command on a host. The settings are read before the source, and files are
written last. -/

namespace Wireframe

/-- Why a command cannot go on. -/
inductive Failure
  | read (path : String) (error : FileError)
  | write (path : String) (error : FileError)
  | readInput (error : FileError)
  | readSettings (error : FileError)
  | parseSettings
  deriving Repr, DecidableEq

def Failure.message : Failure → String
  | .read path error => "failed to read '" ++ path ++ "': " ++ error.message
  | .write path error => "failed to write '" ++ path ++ "': " ++ error.message
  | .readInput error => "failed to read stdin: " ++ error.message
  | .readSettings error => "config error: Failed to read config file: " ++ error.message
  | .parseSettings =>
      "config error: Failed to parse config TOML: no TOML, or a value of the wrong kind"

/-- What a run prints, and its exit code. -/
structure Outcome where
  code : Nat
  output : String
  errors : String
  deriving Repr, DecidableEq

namespace Outcome

def success (output errors : String) : Outcome :=
  ⟨0, output, errors⟩

/-- A failure after some reports. -/
def failed (reports : String) (failure : Failure) : Outcome :=
  ⟨1, "", reports ++ "Error: " ++ failure.message ++ "\n"⟩

end Outcome

/-- A source text under the name by which reports call it. -/
structure Source where
  text : String
  name : String

namespace Source

def ofInput (bytes : ByteArray) : Except Failure Source :=
  match textOf bytes with
  | .ok text => .ok ⟨text, "<stdin>"⟩
  | .error error => .error (.readInput error)

def ofFile (path : String) : Except FileError String → Except Failure Source
  | .ok text => .ok ⟨text, path⟩
  | .error error => .error (.read path error)

def compile (source : Source) (purpose : Purpose) (roots : List String) : Compilation :=
  .ofSource Shorthand.resolve purpose roots source.text

/-- The reports of all diagnostics, one after the other. -/
def reports (source : Source) (compilation : Compilation) : String :=
  String.join (compilation.diagnostics.map fun diagnostic =>
    Report.print diagnostic source.text source.name)

end Source

namespace Settings

def ofFile : Except FileError String → Except Failure Settings
  | .error error => .error (.readSettings error)
  | .ok text =>
      match Settings.parse? text with
      | some settings => .ok settings
      | none => .error .parseSettings

end Settings

namespace Command

variable {m : Type → Type} [Monad m]

def loadSettings (host : Host m) : Option String → ExceptT Failure m Settings
  | none => return .default
  | some path => do Settings.ofFile (← host.readText path)

def loadSource (host : Host m) : Option String → ExceptT Failure m Source
  | none => do Source.ofInput (← host.readInput)
  | some path => do Source.ofFile path (← host.readText path)

/-- The settings and the source of a command. -/
def load (host : Host m) (config input : Option String) :
    m (Except Failure (Settings × Source)) :=
  ExceptT.run do return (← loadSettings host config, ← loadSource host input)

def writePreview (host : Host m) (roots : List String) (output : String)
    (settings : Settings) (source : Source) : m Outcome := do
  let compilation := source.compile .preview roots
  let reports := source.reports compilation
  let page := Preview.print settings.preview compilation.scenes compilation.diagnostics
  match ← host.writeFile output page.toUTF8 with
  | .ok () => return .success ("Wrote " ++ output ++ "\n") reports
  | .error error => return .failed reports (.write output error)

def writeComponents (host : Host m) (roots : List String) (output : Option String)
    (framework : Option Framework) (settings : Settings) (source : Source) : m Outcome := do
  let compilation := source.compile .generate roots
  let reports := source.reports compilation
  let framework := framework.getD settings.generate.framework
  let directory := output.getD settings.generate.directory
  let files := Component.files framework compilation.document.templates
  match ← host.writeAll directory (files.map fun file => (file.path, file.content)) with
  | .ok () =>
      let count := toString files.length ++ " " ++ framework.keyword ++ " file(s)"
      return .success ("Wrote " ++ count ++ " to " ++ directory ++ "\n") reports
  | .error error => return .failed reports (.write directory error)

/-- The outcome of a check, which is a failure if there are errors. -/
def checked (roots : List String) (json : Bool) (source : Source) : Outcome :=
  let compilation := source.compile .preview roots
  let code := if compilation.hasErrors then 1 else 0
  if json then ⟨code, compilation.toJson.pretty ++ "\n", ""⟩
  else
    let remark := if compilation.diagnostics.isEmpty then source.name ++ ": ok\n" else ""
    ⟨code, remark, source.reports compilation⟩

def run (host : Host m) (roots : List String) : Command → m Outcome
  | .preview input output config => do
      match ← load host config input with
      | .ok (settings, source) => writePreview host roots output settings source
      | .error failure => return .failed "" failure
  | .generate input output framework config => do
      match ← load host config input with
      | .ok (settings, source) =>
          writeComponents host roots output framework settings source
      | .error failure => return .failed "" failure
  | .check input json => do
      match ← load host none input with
      | .ok (_, source) => return checked roots json source
      | .error failure => return .failed "" failure

end Command

/-- Runs a command line; `none` if it is not used as it is meant to be. -/
def Host.run {m : Type → Type} [Monad m] (host : Host m) (words : List String) :
    m (Option Outcome) :=
  match Invocation.ofWords? words with
  | none => return none
  | some invocation => some <$> invocation.command.run host invocation.roots

end Wireframe
