import Wireframe.Text.Reader

/-! Blanks, comments, strings and keys of TOML. -/

namespace Wireframe.Toml.Grammar

open Text

def isSpace (c : Char) : Bool :=
  c == ' ' || c == '\t'

def space : Reader Unit :=
  discard (Reader.run isSpace)

/-- A line feed, or a carriage return with one. -/
def newline : Reader Unit :=
  discard (Reader.option (Reader.char '\r')) *> discard (Reader.char '\n')

/-- The characters of comments, and those of strings with their quotes. -/
def isPrintable (c : Char) : Bool :=
  c == '\t' || (0x20 ≤ c.toNat && c != '\x7f')

def comment : Reader Unit :=
  Reader.char '#' *> discard (Reader.run isPrintable)

def lineEnd : Reader Unit :=
  newline <|> Reader.atEnd

/-- What may stand between the items of an array. -/
def gap : Reader Unit :=
  discard (Reader.many (discard (Reader.run1 isSpace) <|> newline <|> comment))

def hexValue? (c : Char) : Option Nat :=
  if '0' ≤ c ∧ c ≤ '9' then some (c.toNat - 0x30)
  else if 'a' ≤ c ∧ c ≤ 'f' then some (c.toNat - 0x57)
  else if 'A' ≤ c ∧ c ≤ 'F' then some (c.toNat - 0x37)
  else none

/-- The number that digits write in a base. -/
def ofDigits (base : Nat) (digits : List Char) : Nat :=
  digits.foldl (fun number c => base * number + (hexValue? c).getD 0) 0

/-- The character of a code point, where surrogates have none. -/
def charOf? (code : Nat) : Option Char :=
  if code.isValidChar then some (Char.ofNat code) else none

def codePoint (count : Nat) : Reader Char := do
  let digits ← Reader.exactly count fun c => (hexValue? c).isSome
  StateT.lift (charOf? (ofDigits 16 digits))

/-- Text between double quotes that stands for itself. -/
def plainText : Reader (List Char) :=
  Reader.run1 fun c => isPrintable c && c != '"' && c != '\\'

/-- The character that a backslash and what follows it stand for. -/
def escapedChar : Reader Char := do
  let _ ← Reader.char '\\'
  match ← Reader.satisfy fun _ => true with
  | 'b' => return '\x08'
  | 'f' => return '\x0c'
  | 'n' => return '\n'
  | 'r' => return '\r'
  | 't' => return '\t'
  | '"' => return '"'
  | '\\' => return '\\'
  | 'u' => codePoint 4
  | 'U' => codePoint 8
  | _ => failure

def escape : Reader (List Char) := do
  return [← escapedChar]

def basicString : Reader (List Char) := do
  let _ ← Reader.char '"'
  let pieces ← Reader.many (plainText <|> escape)
  let _ ← Reader.char '"'
  return pieces.flatten

def literalString : Reader (List Char) := do
  let _ ← Reader.char '\''
  let text ← Reader.run fun c => isPrintable c && c != '\''
  let _ ← Reader.char '\''
  return text

/-- A backslash at the end of a line drops the line end and all blanks after it. -/
def continuation : Reader Unit := do
  let _ ← Reader.char '\\'
  space
  newline
  discard (Reader.many (discard (Reader.run1 isSpace) <|> newline))

/-- One or two quotes inside a string of several lines. -/
def innerQuotes (quote : Char) : Reader (List Char) := do
  let quotes ← Reader.run1 (· == quote)
  if quotes.length ≤ 2 then return quotes else failure

/-- Three quotes that end a string of several lines, after up to two that belong to
it. -/
def closingQuotes (quote : Char) : Reader (List Char) := do
  let inner ← Reader.option (Reader.exactly 5 (· == quote))
  if inner.isSome then return [quote, quote]
  let inner ← Reader.option (Reader.exactly 4 (· == quote))
  if inner.isSome then return [quote]
  let _ ← Reader.exactly 3 (· == quote)
  return []

/-- A string of several lines, where line ends are read as line feeds and one right at
the start is dropped. -/
def multilineString (quote : Char) (piece : Reader (List Char)) : Reader (List Char) := do
  let _ ← Reader.exactly 3 (· == quote)
  let _ ← Reader.option newline
  let pieces ← Reader.many (piece <|> (newline *> pure ['\n']) <|> innerQuotes quote)
  let last ← closingQuotes quote
  return pieces.flatten ++ last

def multilineBasic : Reader (List Char) :=
  multilineString '"' (plainText <|> (continuation *> pure []) <|> escape)

def multilineLiteral : Reader (List Char) :=
  multilineString '\'' (Reader.run1 fun c => isPrintable c && c != '\'')

def string : Reader String :=
  String.ofList <$> (multilineBasic <|> multilineLiteral <|> basicString <|> literalString)

def isBareKeyChar (c : Char) : Bool :=
  c.isAlphanum || c == '_' || c == '-'

/-- One part of a key. -/
def keyPart : Reader String :=
  String.ofList <$> (basicString <|> literalString <|> Reader.run1 isBareKeyChar)

/-- The most parts of a key, and one more than the most arrays and tables in braces
that may lie in each other. -/
def depthLimit : Nat := 80

/-- The parts of a dotted key: all but the last, and the last. -/
def key : Reader (List String × String) := do
  let parts ← Reader.separated (space *> keyPart <* space) (Reader.char '.')
  match parts.getLast? with
  | some last =>
      if parts.length < depthLimit then return (parts.dropLast, last) else failure
  | none => failure

end Wireframe.Toml.Grammar
