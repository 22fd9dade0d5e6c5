import Wireframe.Diagnostic
import Wireframe.Text.Line
import Wireframe.Text.Span

/-! The place in a source that a diagnostic points at: one character, if the column lies
within the line, or the whole line. -/

namespace Wireframe.Diagnostic

open Text

/-- The bytes of a line that `column` points at, where the line starts at `offset`. -/
def columnSpan (offset : Nat) (text : List Char) (column : Option Nat) : Span :=
  match column with
  | none => ⟨offset, offset + byteSize text⟩
  | some column =>
      if 1 ≤ column ∧ column ≤ byteSize text then
        let start := offset + (column - 1)
        match dropBytes? (column - 1) text with
        | some (c :: _) => ⟨start, start + c.utf8Size⟩
        | _ => ⟨start, start + 1⟩
      else ⟨offset, offset + byteSize text⟩

/-- The position at which a segment starts. -/
def segmentStart : List (List Char) → Nat → Nat
  | [], _ => 0
  | _, 0 => 0
  | piece :: rest, index + 1 => byteSize piece + 1 + segmentStart rest index

/-- The bytes of the source that the diagnostic points at. -/
def span? (diagnostic : Diagnostic) (source : List Char) : Option Span := do
  let line ← diagnostic.line
  if line = 0 then none
  else
    let pieces := segments source
    let piece ← pieces[line - 1]?
    return columnSpan (segmentStart pieces (line - 1)) (dropReturn piece) diagnostic.column

/-- The characters of the source that the diagnostic points at. -/
def charSpan? (diagnostic : Diagnostic) (source : List Char) : Option Span := do
  let span ← diagnostic.span? source
  let start ← charOffset? span.start source
  let stop ← charOffset? span.stop source
  return ⟨start, stop⟩

end Wireframe.Diagnostic
