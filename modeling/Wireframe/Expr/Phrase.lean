import Wireframe.Expr
import Wireframe.Expr.Token

/-! Phrases are the parse trees of layout text: a column of rows of terms. A term is
a primary with any number of bracketed contents. Every token of the text keeps its
span here, and rows and columns grow to the right. -/

namespace Wireframe

open Text

mutual
inductive Primary
  | name (text : String) (span : Span)
  | parens (opener : Span) (body : Column) (closer : Span)
  deriving Repr

inductive Term
  | bare (head : Primary)
  | suffixed (target : Term) (opener : Span) (content : Column) (closer : Span)
  deriving Repr

inductive Row
  | single (first : Term)
  | plus (init : Row) (sign : Span) (last : Term)
  | beside (init : Row) (last : Term)
  deriving Repr

inductive Column
  | single (first : Row)
  | slash (init : Column) (sign : Span) (last : Row)
  deriving Repr
end

mutual
def Primary.lexemes : Primary → List Lexeme
  | .name text span => [⟨.name text, span⟩]
  | .parens opener body closer =>
      ⟨.openParen, opener⟩ :: (body.lexemes ++ [⟨.closeParen, closer⟩])

def Term.lexemes : Term → List Lexeme
  | .bare head => head.lexemes
  | .suffixed target opener content closer =>
      target.lexemes ++
        ⟨.openBracket, opener⟩ :: (content.lexemes ++ [⟨.closeBracket, closer⟩])

def Row.lexemes : Row → List Lexeme
  | .single first => first.lexemes
  | .plus init sign last => init.lexemes ++ ⟨.plus, sign⟩ :: last.lexemes
  | .beside init last => init.lexemes ++ last.lexemes

def Column.lexemes : Column → List Lexeme
  | .single first => first.lexemes
  | .slash init sign last => init.lexemes ++ ⟨.slash, sign⟩ :: last.lexemes
end

def Primary.span : Primary → Span
  | .name _ span => span
  | .parens opener _ closer => opener.join closer

/-- From the start of the first token to the end of the last one. -/
def Term.span : Term → Span
  | .bare head => head.span
  | .suffixed target _ _ closer => target.span.join closer

mutual
/-- The expression that a phrase stands for. Only a plain entity may be the target
of a content; otherwise the error is the span of the whole term. -/
def Primary.denote : Primary → Except Span Expr
  | .name text _ => .ok (.entity text)
  | .parens _ body _ => Expr.join .column <$> body.denoteRows

/-- What a term stands for, where `whole` is the span of the term that it begins. -/
def Term.denoteIn (whole : Span) : Term → Except Span Expr
  | .bare head => head.denote
  | .suffixed target _ content _ => do
      match ← target.denoteIn whole with
      | .entity name => do
          return .container name (Expr.join .column (← content.denoteRows))
      | _ => throw whole

/-- What the terms of a row stand for, in order. -/
def Row.denoteTerms : Row → Except Span (List Expr)
  | .single first => do return [← first.denoteIn first.span]
  | .plus init _ last => do
      let items ← init.denoteTerms
      return items ++ [← last.denoteIn last.span]
  | .beside init last => do
      let items ← init.denoteTerms
      return items ++ [← last.denoteIn last.span]

/-- What the rows of a column stand for, in order. -/
def Column.denoteRows : Column → Except Span (List Expr)
  | .single first => do return [Expr.join .row (← first.denoteTerms)]
  | .slash init _ last => do
      let items ← init.denoteRows
      return items ++ [Expr.join .row (← last.denoteTerms)]
end

def Term.denote (term : Term) : Except Span Expr :=
  term.denoteIn term.span

def Row.denote (row : Row) : Except Span Expr :=
  Expr.join .row <$> row.denoteTerms

def Column.denote (column : Column) : Except Span Expr :=
  Expr.join .column <$> column.denoteRows

end Wireframe
