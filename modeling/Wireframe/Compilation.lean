import Wireframe.Expansion

/-! A compilation reads a source and expands it. It never fails: what is wrong is among
its diagnostics. -/

namespace Wireframe

/-- What the result is for. -/
inductive Purpose
  | preview
  | generate
  deriving Repr, DecidableEq

def Purpose.keyword : Purpose → String
  | .preview => "preview"
  | .generate => "generate"

structure Compilation where
  purpose : Purpose
  document : Document
  expansion : Expansion
  deriving Repr

namespace Compilation

def ofSource (resolve : Resolver) (purpose : Purpose) (roots : List String)
    (source : String) : Compilation :=
  let document := Document.parse resolve source
  ⟨purpose, document, document.expand roots⟩

def scenes (compilation : Compilation) : List (Layout String) :=
  compilation.expansion.scenes

def roots (compilation : Compilation) : List (Block String) :=
  compilation.expansion.roots

/-- What reading found, then what expansion found. -/
def diagnostics (compilation : Compilation) : List Diagnostic :=
  compilation.document.diagnostics ++ compilation.expansion.diagnostics

def hasErrors (compilation : Compilation) : Bool :=
  Diagnostic.anyError compilation.diagnostics

end Compilation

end Wireframe
