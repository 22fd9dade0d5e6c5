import Wireframe.Expr.Phrase

/-! Reading layout text. One pass over the lexemes keeps the open brackets on a
stack, so the first lexeme that cannot follow is where reading stops, and what could
have followed is known there. -/

namespace Wireframe

open Text

/-- What stands before a term inside its innermost bracket: the finished rows with
the slash after them, and the terms of the same row with the sign after them, where
juxtaposed terms have none. -/
structure Lead where
  rows : Option (Column × Span)
  terms : Option (Row × Option Span)
  deriving Repr

namespace Lead

def empty : Lead := ⟨none, none⟩

/-- The row that ends with `term`. -/
def row (lead : Lead) (term : Term) : Row :=
  match lead.terms with
  | none => .single term
  | some (init, none) => .beside init term
  | some (init, some sign) => .plus init sign term

/-- The column that ends with `term`. -/
def column (lead : Lead) (term : Term) : Column :=
  match lead.rows with
  | none => .single (lead.row term)
  | some (init, sign) => .slash init sign (lead.row term)

def afterPlus (lead : Lead) (term : Term) (sign : Span) : Lead :=
  { lead with terms := some (lead.row term, some sign) }

def beside (lead : Lead) (term : Term) : Lead :=
  { lead with terms := some (lead.row term, none) }

def afterSlash (lead : Lead) (term : Term) (sign : Span) : Lead :=
  ⟨some (lead.column term, sign), none⟩

end Lead

/-- An open bracket with what it interrupted. -/
inductive Frame
  | parens (lead : Lead) (opener : Span)
  | content (lead : Lead) (target : Term) (opener : Span)
  deriving Repr

def Frame.isContent : Frame → Bool
  | .parens .. => false
  | .content .. => true

/-- Where reading stands inside the innermost open bracket. -/
inductive Cursor
  | start (lead : Lead)
  | after (lead : Lead) (term : Term)
  deriving Repr

structure ParseState where
  frames : List Frame
  cursor : Cursor
  deriving Repr

namespace ParseState

def initial : ParseState :=
  ⟨[], .start Lead.empty⟩

/-- Terms may be juxtaposed wherever a content bracket is open. -/
def juxtaposes (frames : List Frame) : Bool :=
  frames.any Frame.isContent

/-- Begins a primary, where one may begin. -/
def begin? (frames : List Frame) (lead : Lead) : Lexeme → Option ParseState
  | ⟨.name text, span⟩ => some ⟨frames, .after lead (.bare (.name text span))⟩
  | ⟨.openParen, span⟩ => some ⟨.parens lead span :: frames, .start Lead.empty⟩
  | _ => none

/-- Closes the innermost bracket, if it is of the kind that `closer` closes. -/
def close? (frames : List Frame) (body : Column) (closer : Lexeme) : Option ParseState :=
  match closer, frames with
  | ⟨.closeParen, span⟩, .parens lead opener :: outer =>
      some ⟨outer, .after lead (.bare (.parens opener body span))⟩
  | ⟨.closeBracket, span⟩, .content lead target opener :: outer =>
      some ⟨outer, .after lead (.suffixed target opener body span)⟩
  | _, _ => none

/-- Takes one lexeme, if it can follow. -/
def step? (state : ParseState) (lexeme : Lexeme) : Option ParseState :=
  match state.cursor with
  | .start lead => begin? state.frames lead lexeme
  | .after lead term =>
      match lexeme.token with
      | .plus => some ⟨state.frames, .start (lead.afterPlus term lexeme.span)⟩
      | .slash => some ⟨state.frames, .start (lead.afterSlash term lexeme.span)⟩
      | .openBracket =>
          some ⟨.content lead term lexeme.span :: state.frames, .start Lead.empty⟩
      | .closeBracket | .closeParen => close? state.frames (lead.column term) lexeme
      | .name _ | .openParen =>
          if juxtaposes state.frames then begin? state.frames (lead.beside term) lexeme
          else none

/-- The finished column, if the text may end here. -/
def finish? (state : ParseState) : Option Column :=
  match state with
  | ⟨[], .after lead term⟩ => some (lead.column term)
  | _ => none

/-- The marks that could follow, in the order of their characters. Names are not
marks. -/
def marks (state : ParseState) : List Token :=
  [.openParen, .closeParen, .plus, .slash, .openBracket, .closeBracket].filter
    fun token => (state.step? ⟨token, ⟨0, 0⟩⟩).isSome

end ParseState

/-- Why lexemes are no layout expression. -/
inductive ParseError
  | unexpectedToken (found : Token) (span : Span) (expected : List Token)
  | unexpectedEnd (span : Span) (expected : List Token)
  | trailingInput (found : Token) (span : Span)
  | invalidContainer (span : Span)
  deriving Repr, DecidableEq

namespace ParseError

def message : ParseError → String
  | .unexpectedToken found span _ =>
      "unexpected token '" ++ found.text ++ "' at " ++ toString span.start
  | .unexpectedEnd _ _ => "unexpected end of input"
  | .trailingInput found span =>
      "trailing input: unexpected token '" ++ found.text ++ "' at " ++ toString span.start
  | .invalidContainer _ => "only an entity may take inline content"

def span : ParseError → Span
  | .unexpectedToken _ span _ => span
  | .unexpectedEnd span _ => span
  | .trailingInput _ span => span
  | .invalidContainer span => span

/-- The texts of the marks that could have stood at the place of the error. -/
def expected : ParseError → List String
  | .unexpectedToken _ _ expected => expected.map Token.quoted
  | .unexpectedEnd _ expected => expected.map Token.quoted
  | .trailingInput _ _ => []
  | .invalidContainer _ => []

end ParseError

namespace ParseState

/-- The error at a lexeme that cannot follow. -/
def reject (state : ParseState) (lexeme : Lexeme) : ParseError :=
  if state.finish?.isSome then .trailingInput lexeme.token lexeme.span
  else .unexpectedToken lexeme.token lexeme.span state.marks

/-- Takes the lexemes in turn; `ending` is the place after them. -/
def run (ending : Span) (state : ParseState) : List Lexeme → Except ParseError Column
  | [] =>
      match state.finish? with
      | some column => .ok column
      | none => .error (.unexpectedEnd ending state.marks)
  | lexeme :: rest =>
      match state.step? lexeme with
      | some next => next.run ending rest
      | none => .error (state.reject lexeme)

end ParseState

/-- The end of a text of `size` bytes, which goes back to the end of the last lexeme. -/
def Lexeme.ending (size : Nat) (lexemes : List Lexeme) : Span :=
  ⟨size, lexemes.getLast?.elim size (·.span.stop)⟩

/-- The parse tree of the lexemes of a text of `size` bytes. -/
def Column.ofLexemes (size : Nat) (lexemes : List Lexeme) : Except ParseError Column :=
  ParseState.initial.run (Lexeme.ending size lexemes) lexemes

/-- Reads lexemes as an expression: the syntax of all of them first, then the targets
of contents. -/
def Expr.ofLexemes (size : Nat) (lexemes : List Lexeme) : Except ParseError Expr := do
  let column ← Column.ofLexemes size lexemes
  column.denote.mapError .invalidContainer

/-- Why a text is no layout expression. -/
inductive LayoutError
  | scan (error : ScanError)
  | parse (error : ParseError)
  deriving Repr, DecidableEq

namespace LayoutError

def message : LayoutError → String
  | .scan error => error.message
  | .parse error => error.message

/-- The position in the text at which reading failed. -/
def offset : LayoutError → Nat
  | .scan error => error.offset
  | .parse error => error.span.start

end LayoutError

def Expr.parse (text : List Char) : Except LayoutError Expr := do
  let lexemes ← (Lexeme.scan text).mapError .scan
  (Expr.ofLexemes (byteSize text) lexemes).mapError .parse

end Wireframe
