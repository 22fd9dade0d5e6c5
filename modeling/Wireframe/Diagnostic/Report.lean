import Wireframe.Diagnostic.Place
import Wireframe.Text.Width

/-! Diagnostics as coloured reports for a terminal: the message, the line of the source
that it is about, and a pointer at the place in the line. -/

namespace Wireframe.Report

open Text

/-- A text in one of the terminal's colours. -/
def paint (colour : String) (text : String) : String :=
  "\x1b[" ++ colour ++ "m" ++ text ++ "\x1b[0m"

def frameColour : String := "38;5;246"

def marginColour : String := "38;5;240"

def plainColour : String := "38;5;249"

def levelColour : Level → String
  | .error => "31"
  | .warning => "33"

def title : Level → String
  | .error => "Error:"
  | .warning => "Warning:"

def spaces (count : Nat) : String :=
  String.ofList (List.replicate count ' ')

/-- A line of a source, counted from one, with the offset of its first character. -/
structure SourceLine where
  number : Nat
  offset : Nat
  text : List Char
  deriving Repr

/-- The last of some lines that starts no later than `position`; the first of them has
the given number and offset. -/
def locate (position number offset : Nat) : List (List Char) → SourceLine
  | [] => ⟨number, offset, []⟩
  | [last] => ⟨number, offset, last⟩
  | text :: next :: rest =>
      let after := offset + text.length + 1
      if position < after then ⟨number, offset, text⟩
      else locate position (number + 1) after (next :: rest)

/-- The line on which a report shows a position. Nothing after a last line feed is no
line. -/
def sourceLine (position : Nat) (source : List Char) : SourceLine :=
  let pieces := segments source
  let shown := if pieces.getLastD [] = [] then pieces.dropLast else pieces
  let line := locate position 1 0 shown
  { line with text := trimEnd line.text }

/-- The cells of the character at an index of a line. A tab goes on to the next multiple
of four. -/
def cells (text : List Char) (index : Nat) : Nat :=
  match text[index]? with
  | none => 1
  | some '\t' => 4 - index % 4
  | some c => width c

/-- A character of the source, in as many cells as it takes. Blanks are shown as
spaces. -/
def shownChar (colour : String) (index : Nat) (c : Char) : String :=
  if c = '\t' then String.join (List.replicate (4 - index % 4) (paint colour " "))
  else paint colour (if isBlank c then " " else c.toString)

/-- A report's line with the span that it marks, both counted from the start of the
line. -/
structure Mark where
  text : List Char
  start : Nat
  stop : Nat
  colour : String
  deriving Repr

namespace Mark

def covers (mark : Mark) (index : Nat) : Bool :=
  mark.start ≤ index && index < mark.stop

/-- The index that the pointer is at. -/
def pointer (mark : Mark) : Nat :=
  (mark.start + mark.stop) / 2

/-- The source, in colour where it is marked. -/
def sourceText (mark : Mark) : String :=
  String.join (mark.text.zipIdx.map fun (c, index) =>
    shownChar (if mark.covers index then mark.colour else plainColour) index c)

/-- A cell followed by fillers, over the whole width of the character at an index. -/
def fill (mark : Mark) (index : Nat) (first filler : String) : String :=
  match cells mark.text index with
  | 0 => ""
  | extra + 1 => first ++ String.join (List.replicate extra filler)

/-- The indexes that the pointer lines run over. -/
def indexes (mark : Mark) : List Nat :=
  List.range (mark.stop + 2)

def bar (mark : Mark) : String :=
  paint mark.colour "─"

def underlineCell (mark : Mark) (index : Nat) : String :=
  if index = mark.pointer then
    if mark.start = mark.stop then
      mark.fill index (paint mark.colour "│") (paint mark.colour " ")
    else mark.fill index (paint mark.colour "┬") mark.bar
  else if mark.covers index then mark.fill index mark.bar mark.bar
  else mark.fill index " " " "

/-- The line under the source. -/
def underline (mark : Mark) : String :=
  String.join (mark.indexes.map mark.underlineCell)

def arrowCell (mark : Mark) (index : Nat) : String :=
  if index < mark.pointer then mark.fill index " " " "
  else if index = mark.pointer then mark.fill index (paint mark.colour "╰") mark.bar
  else mark.fill index mark.bar mark.bar

/-- The line that leads from the pointer to the message. -/
def arrow (mark : Mark) : String :=
  String.join (mark.indexes.map mark.arrowCell)

end Mark

/-- The lines below the title, for a span of characters. -/
def body (diagnostic : Diagnostic) (source : List Char) (file : String) (span : Span) :
    List String :=
  let line := sourceLine span.start source
  let mark : Mark :=
    ⟨line.text, span.start - line.offset, span.stop - line.offset, levelColour diagnostic.level⟩
  let number := toString line.number
  let digits := number.length
  let margin := " " ++ paint marginColour (spaces (digits + 1) ++ "│") ++ " "
  [spaces (digits + 2) ++ paint frameColour "╭" ++ paint frameColour "─" ++
      paint frameColour "[" ++ file ++ ":" ++ number ++ ":" ++ toString (mark.start + 1) ++
      paint frameColour "]",
    spaces (digits + 2) ++ paint frameColour "│",
    " " ++ paint frameColour (number ++ " │") ++ " " ++ mark.sourceText,
    margin ++ mark.underline,
    margin ++ mark.arrow ++ " " ++ diagnostic.message,
    paint frameColour (String.join (List.replicate (digits + 2) "─") ++ "╯")]

def lines (diagnostic : Diagnostic) (source : List Char) (file : String) : List String :=
  let heading :=
    paint (levelColour diagnostic.level) (title diagnostic.level) ++ " " ++ diagnostic.message
  match diagnostic.charSpan? source with
  | some span => heading :: if source.isEmpty then [] else body diagnostic source file span
  | none => [heading]

/-- The report of a diagnostic about the source in a file. -/
def print (diagnostic : Diagnostic) (source file : String) : String :=
  String.join ((lines diagnostic source.toList file).map (· ++ "\n"))

end Wireframe.Report
