/-! Readers take something from the front of a text and leave the rest, or fail. -/

namespace Wireframe.Text

abbrev Reader := StateT (List Char) Option

namespace Reader

/-- Takes one character that satisfies `accept`. -/
def satisfy (accept : Char → Bool) : Reader Char := fun text =>
  match text with
  | [] => none
  | c :: rest => if accept c then some (c, rest) else none

def char (c : Char) : Reader Char :=
  satisfy (· == c)

def literal (text : String) : Reader Unit :=
  text.toList.forM fun c => discard (char c)

/-- Takes the longest run of characters that satisfy `accept`, which may be empty. -/
def run (accept : Char → Bool) : Reader (List Char) := fun text =>
  some (text.takeWhile accept, text.dropWhile accept)

/-- Takes a run that is not empty. -/
def run1 (accept : Char → Bool) : Reader (List Char) := do
  return (← satisfy accept) :: (← run accept)

def atEnd : Reader Unit := fun text =>
  if text.isEmpty then some ((), text) else none

def option (reader : Reader α) : Reader (Option α) :=
  (some <$> reader) <|> pure none

/-- What a reader takes again and again, until it fails or takes nothing. -/
def repeated (reader : Reader α) (text : List Char) : List α × List Char :=
  match reader text with
  | none => ([], text)
  | some (value, rest) =>
      if rest.length < text.length then
        let (values, last) := repeated reader rest
        (value :: values, last)
      else ([], text)
  termination_by text.length

def many (reader : Reader α) : Reader (List α) := fun text =>
  some (repeated reader text)

/-- One or more, with something between each two. -/
def separated (reader : Reader α) (separator : Reader β) : Reader (List α) := do
  return (← reader) :: (← many (separator *> reader))

/-- Exactly `count` characters that satisfy `accept`. -/
def exactly (count : Nat) (accept : Char → Bool) : Reader (List Char) :=
  (List.range count).mapM fun _ => satisfy accept

/-- Reads a whole text. -/
def whole? (reader : Reader α) (text : List Char) : Option α :=
  ((reader <* atEnd) text).map (·.1)

end Reader

end Wireframe.Text
