/-! Diagnostics: what a source is told, with the line and the column it is about. -/

namespace Wireframe

inductive Level
  | warning
  | error
  deriving Repr, DecidableEq

def Level.keyword : Level → String
  | .warning => "warning"
  | .error => "error"

/-- A message with a line and a column, counted from one, where they are known. The
column counts bytes. -/
structure Diagnostic where
  level : Level
  message : String
  line : Option Nat
  column : Option Nat
  deriving Repr, DecidableEq

namespace Diagnostic

def isError (diagnostic : Diagnostic) : Bool :=
  diagnostic.level = .error

/-- The diagnostic on one line of plain text. -/
def summary (diagnostic : Diagnostic) : String :=
  let place :=
    match diagnostic.line, diagnostic.column with
    | some line, some column => " (line " ++ toString line ++ ":" ++ toString column ++ ")"
    | some line, none => " (line " ++ toString line ++ ")"
    | none, _ => ""
  diagnostic.level.keyword ++ place ++ ": " ++ diagnostic.message

def anyError (diagnostics : List Diagnostic) : Bool :=
  diagnostics.any isError

def unsupportedStyle (token : String) (line : Nat) : Diagnostic :=
  ⟨.warning, "unsupported style token: " ++ token, some line, none⟩

def unknownTemplate (name : String) : Diagnostic :=
  ⟨.error, "unknown template: " ++ name, none, none⟩

end Diagnostic

end Wireframe
