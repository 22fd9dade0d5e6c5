import Wireframe.Diagnostic
import Wireframe.Expr.Parse
import Wireframe.Registry
import Wireframe.Style.Anchor
import Wireframe.Text.Line

/-! Documents. Every line that is not blank is a style line or a layout line, which may
carry anchors. What a line contributes depends on nothing but itself. -/

namespace Wireframe

open Text

inductive Statement
  | layout (line : Nat) (raw : String) (expression : Expr)
  | style (line : Nat) (raw : String) (entity : String) (tokens : List String)
  deriving Repr

namespace Statement

def line : Statement → Nat
  | .layout line _ _ => line
  | .style line _ _ _ => line

/-- The trimmed text of the line. -/
def raw : Statement → String
  | .layout _ raw _ => raw
  | .style _ raw _ _ => raw

def expression? : Statement → Option Expr
  | .layout _ _ expression => some expression
  | .style .. => none

end Statement

/-- What a part of a source adds to the document. -/
structure Contribution where
  statements : List Statement
  edits : List Registry.Edit
  diagnostics : List Diagnostic

namespace Contribution

def empty : Contribution :=
  ⟨[], [], []⟩

def append (left right : Contribution) : Contribution :=
  ⟨left.statements ++ right.statements, left.edits ++ right.edits,
    left.diagnostics ++ right.diagnostics⟩

instance : Append Contribution := ⟨append⟩

def join (parts : List Contribution) : Contribution :=
  ⟨parts.flatMap statements, parts.flatMap edits, parts.flatMap diagnostics⟩

/-- Style tokens for an entity: those that resolve are applied, the others are warned
about. -/
def ofStyles (resolve : Resolver) (line : Nat) (entity : String) (tokens : List String) :
    Contribution where
  statements := []
  edits := .sight entity line :: (tokens.filterMap resolve).map (.style entity line)
  diagnostics :=
    (tokens.filter fun token => (resolve token).isNone).map
      (Diagnostic.unsupportedStyle · line)

/-- A layout line whose text is `text` after `leading` bytes of blanks, and `remainder`
without its anchors. The column of an error is known if no anchor was cut. -/
def ofLayout (line leading : Nat) (text remainder : List Char) : Contribution :=
  if remainder = [] then empty
  else
    match Expr.parse remainder with
    | .ok expression =>
        ⟨[.layout line (String.ofList text) expression], expression.edits line, []⟩
    | .error error =>
        let column := if remainder = text then some (leading + error.offset + 1) else none
        ⟨[], [], [⟨.error, error.message, some line, column⟩]⟩

def ofLine (resolve : Resolver) (line : Nat) (source : List Char) : Contribution :=
  let text := trim source
  if text = [] then empty
  else
    match Labelled.ofText? text with
    | some label =>
        let entity := String.ofList label.name
        let tokens := Style.tokens label.after
        ⟨[.style line (String.ofList text) entity tokens], [], []⟩ ++
          ofStyles resolve line entity tokens
    | none =>
        let leading := byteSize (source.takeWhile isBlank)
        join ((Anchor.styles text).map fun (entity, tokens) =>
            ofStyles resolve line entity tokens) ++
          ofLayout line leading text (Anchor.remainder text)

end Contribution

structure Document where
  source : String
  statements : List Statement
  templates : Registry
  diagnostics : List Diagnostic
  deriving Repr

namespace Document

/-- What all lines contribute, in order; lines are counted from one. -/
def contribution (resolve : Resolver) (source : String) : Contribution :=
  .join ((lines source.toList).zipIdx 1 |>.map fun (text, line) =>
    .ofLine resolve line text)

def parse (resolve : Resolver) (source : String) : Document :=
  let whole := contribution resolve source
  ⟨source, whole.statements, Registry.empty.applyAll whole.edits, whole.diagnostics⟩

/-- The numbers of the layout lines. -/
def layoutLines (document : Document) : List Nat :=
  (document.statements.filter (·.expression?.isSome)).map Statement.line

/-- The expressions of the layout lines. -/
def expressions (document : Document) : List Expr :=
  document.statements.filterMap Statement.expression?

end Document

end Wireframe
