import Wireframe.Name
import Wireframe.Text.Blank
import Wireframe.Text.Span

/-! Tokens of layout text. Scanning takes the longest name at each place, skips
blanks, and stops at the first character that can start neither. -/

namespace Wireframe

open Text

inductive Token
  | plus
  | slash
  | openBracket
  | closeBracket
  | openParen
  | closeParen
  | name (text : String)
  deriving Repr, DecidableEq

def Token.text : Token → String
  | .plus => "+"
  | .slash => "/"
  | .openBracket => "["
  | .closeBracket => "]"
  | .openParen => "("
  | .closeParen => ")"
  | .name text => text

/-- The token as it is shown where it could have stood. -/
def Token.quoted (token : Token) : String :=
  "'" ++ token.text ++ "'"

/-- The token that a character is on its own. -/
def Token.ofChar? : Char → Option Token
  | '+' => some .plus
  | '/' => some .slash
  | '[' => some .openBracket
  | ']' => some .closeBracket
  | '(' => some .openParen
  | ')' => some .closeParen
  | _ => none

/-- A token and the place where it stands. -/
structure Lexeme where
  token : Token
  span : Span
  deriving Repr, DecidableEq

/-- A character that starts no token, at its position. -/
structure ScanError where
  char : Char
  offset : Nat
  deriving Repr, DecidableEq

def ScanError.message (error : ScanError) : String :=
  "invalid character '" ++ error.char.toString ++ "' at " ++ toString error.offset

/-- The lexemes of a text that starts at `offset`. -/
def Lexeme.scanFrom (offset : Nat) : List Char → Except ScanError (List Lexeme)
  | [] => .ok []
  | c :: rest =>
      if isBlank c then
        Lexeme.scanFrom (offset + c.utf8Size) rest
      else if Name.isHead c then
        let text := c :: rest.takeWhile Name.isTail
        let stop := offset + byteSize text
        (Lexeme.scanFrom stop (rest.dropWhile Name.isTail)).map
          (⟨.name (String.ofList text), ⟨offset, stop⟩⟩ :: ·)
      else
        match Token.ofChar? c with
        | some token =>
            let stop := offset + c.utf8Size
            (Lexeme.scanFrom stop rest).map (⟨token, ⟨offset, stop⟩⟩ :: ·)
        | none => .error ⟨c, offset⟩
  termination_by text => text.length
  decreasing_by
    all_goals simp only [List.length_cons]
    · omega
    · have := (List.dropWhile_suffix (l := rest) Name.isTail).length_le
      omega
    · omega

/-- The lexemes of a text, in order. -/
def Lexeme.scan (text : List Char) : Except ScanError (List Lexeme) :=
  Lexeme.scanFrom 0 text

end Wireframe
