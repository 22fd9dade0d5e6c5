import Wireframe.Toml.Number

/-! Whole TOML documents: values, pairs, headers and lines. -/

namespace Wireframe.Toml.Grammar

open Text

/-- An array of values that `item` reads, where a comma may follow the last one. -/
def array (item : Reader Toml) : Reader Toml := do
  let _ ← Reader.char '['
  let items ← Reader.option
    (Reader.separated (gap *> item <* gap) (Reader.char ',') <*
      Reader.option (Reader.char ','))
  gap
  let _ ← Reader.char ']'
  return .array (items.getD [])

/-- A key and a value that `item` reads, without a line end between them. -/
def pair (item : Reader Toml) : Reader Pair := do
  let (path, last) ← key
  let _ ← Reader.char '='
  space
  let value ← item
  space
  return ⟨path, last, value⟩

/-- A table in braces, on one line. -/
def inlineTable (item : Reader Toml) : Reader Toml := do
  let _ ← Reader.char '\x7b'
  let pairs ← Reader.option (Reader.separated (pair item) (Reader.char ','))
  space
  let _ ← Reader.char '\x7d'
  StateT.lift (ofPairs? (pairs.getD []))

/-- A value with at most `depth` arrays and tables around its innermost parts. -/
def value : Nat → Reader Toml
  | 0 => scalar
  | depth + 1 => scalar <|> array (value depth) <|> inlineTable (value depth)

/-- What may stand after the end of a statement on its line. -/
def trailer : Reader Unit := do
  space
  let _ ← Reader.option comment
  lineEnd

def tableHeader : Reader Statement := do
  let _ ← Reader.char '['
  let (path, last) ← key
  let _ ← Reader.char ']'
  return .header ⟨path, last, false⟩

def elementHeader : Reader Statement := do
  Reader.literal "[["
  let (path, last) ← key
  Reader.literal "]]"
  return .header ⟨path, last, true⟩

def statement : Reader Statement :=
  (elementHeader <|> tableHeader <|> (.pair <$> pair (value (depthLimit - 1)))) <* trailer

/-- A line without a statement. -/
def emptyLine : Reader Unit :=
  newline <|> (comment *> lineEnd)

def statements : Reader (List Statement) := do
  let found ← Reader.many
    (space *> ((emptyLine *> pure none) <|> (some <$> statement)))
  space
  return found.filterMap id

end Wireframe.Toml.Grammar

namespace Wireframe.Toml

/-- The entries of a document; a byte order mark before it is skipped. -/
def parse? (source : String) : Option Entries :=
  let text :=
    match source.toList with
    | '\ufeff' :: rest => rest
    | text => text
  Text.Reader.whole? Grammar.statements text >>= ofStatements?

end Wireframe.Toml
