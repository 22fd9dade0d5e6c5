import Wireframe.Toml
import Wireframe.Toml.Text

/-! Numbers, dates and times of TOML. Integers have 64 bits, floats must not be too
large, and dates must exist. -/

namespace Wireframe.Toml.Grammar

open Text

def isDecimal (c : Char) : Bool :=
  '0' ≤ c ∧ c ≤ '9'

/-- Digits with single underscores between them, which are dropped. -/
def digits (accept : Char → Bool) : Reader (List Char) :=
  List.flatten <$> Reader.separated (Reader.run1 accept) (Reader.char '_')

def sign : Reader (Option Char) :=
  Reader.option (Reader.char '+' <|> Reader.char '-')

/-- The digits of a whole number, which do not begin with a needless zero. -/
def wholeDigits : Reader (List Char) :=
  ((fun c => [c]) <$> Reader.char '0') <|> digits isDecimal

/-- The number of magnitudes that a positive 64-bit integer may have. -/
def integerLimit : Nat := Nat.pow 2 63

def decimalInteger : Reader Int := do
  let sign ← sign
  let magnitude := ofDigits 10 (← wholeDigits)
  if sign = some '-' then
    if magnitude ≤ integerLimit then return -magnitude else failure
  else if magnitude < integerLimit then return magnitude
  else failure

/-- An integer in a base of its own. -/
def basedInteger (mark : String) (base : Nat) : Reader Int := do
  Reader.literal mark
  let magnitude := ofDigits base (← digits fun c => (hexValue? c).any (· < base))
  if magnitude < integerLimit then return magnitude else failure

def integer : Reader Int :=
  basedInteger "0x" 16 <|> basedInteger "0o" 8 <|> basedInteger "0b" 2 <|> decimalInteger

/-- The least number that a 64-bit float rounds to infinity: half a unit above the
largest. -/
def floatLimit : Nat := Nat.pow 2 1024 - Nat.pow 2 970

/-- Tells whether the digits, scaled by a power of ten, reach the limit of floats. -/
def overflows (significant : List Char) (exponent : Int) : Bool :=
  let leading := significant.dropWhile (· == '0')
  let magnitude := leading.length + exponent
  if leading.isEmpty || magnitude < 300 then false
  else if 320 < magnitude then true
  else
    let number := ofDigits 10 leading
    if 0 ≤ exponent then floatLimit ≤ number * Nat.pow 10 exponent.toNat
    else floatLimit * Nat.pow 10 (-exponent).toNat ≤ number

def fraction : Reader (List Char) :=
  Reader.char '.' *> digits isDecimal

def exponent : Reader Int := do
  let _ ← Reader.char 'e' <|> Reader.char 'E'
  let sign ← sign
  let magnitude : Int := ofDigits 10 (← digits isDecimal)
  return if sign = some '-' then -magnitude else magnitude

/-- A float that is not too large; one that is too small is zero. -/
def decimalFloat : Reader Unit := do
  let sign ← sign
  let whole ← wholeDigits
  let fraction ← Reader.option fraction
  let exponent ← Reader.option exponent
  if fraction.isNone && exponent.isNone then failure
  let decimals := fraction.getD []
  if sign ≠ some '-' && overflows (whole ++ decimals) (exponent.getD 0 - decimals.length) then
    failure

def specialFloat : Reader Unit := do
  let _ ← sign
  Reader.literal "inf" <|> Reader.literal "nan"

/-- The text that a reader takes. -/
def written (reader : Reader α) : Reader String := do
  let before ← get
  let _ ← reader
  let after ← get
  return String.ofList (before.take (before.length - after.length))

/-- Two digits for a number between two bounds. -/
def twoDigits (lowest highest : Nat) : Reader (List Char) := do
  let digits ← Reader.exactly 2 isDecimal
  let number := ofDigits 10 digits
  if lowest ≤ number ∧ number ≤ highest then return digits else failure

def daysInMonth (year month : Nat) : Nat :=
  if month = 2 then
    if year % 4 = 0 ∧ (year % 100 ≠ 0 ∨ year % 400 = 0) then 29 else 28
  else if month ∈ [4, 6, 9, 11] then 30
  else 31

def date : Reader (List Char) := do
  let year ← Reader.exactly 4 isDecimal
  let _ ← Reader.char '-'
  let month ← twoDigits 1 12
  let _ ← Reader.char '-'
  let day ← twoDigits 1 (daysInMonth (ofDigits 10 year) (ofDigits 10 month))
  return year ++ ['-'] ++ month ++ ['-'] ++ day

/-- The digits after the seconds, down to the nanosecond and without needless zeros. -/
def secondFraction (digits : List Char) : List Char :=
  let kept := ((digits.take 9).reverse.dropWhile (· == '0')).reverse
  if kept.isEmpty then [] else '.' :: kept

def time : Reader (List Char) := do
  let hour ← twoDigits 0 23
  let _ ← Reader.char ':'
  let minute ← twoDigits 0 59
  let _ ← Reader.char ':'
  let second ← twoDigits 0 60
  let fraction ← Reader.option (Reader.char '.' *> Reader.run1 isDecimal)
  return hour ++ [':'] ++ minute ++ [':'] ++ second ++ secondFraction (fraction.getD [])

def zuluOffset : Reader (List Char) := do
  let _ ← Reader.char 'Z' <|> Reader.char 'z'
  return ['Z']

/-- An offset from the standard time, which is positive if there is none. -/
def timeOffset : Reader (List Char) := do
  let sign ← Reader.char '+' <|> Reader.char '-'
  let hour ← twoDigits 0 23
  let _ ← Reader.char ':'
  let minute ← twoDigits 0 59
  let sign := if (hour ++ minute).all (· == '0') then '+' else sign
  return sign :: (hour ++ [':'] ++ minute)

def timeOfDay : Reader (List Char) := do
  let _ ← Reader.char 'T' <|> Reader.char 't' <|> Reader.char ' '
  let time ← time
  let offset ← Reader.option (zuluOffset <|> timeOffset)
  return 'T' :: (time ++ offset.getD [])

/-- A date, a time, or both with an offset, in the one form that is written. -/
def datetime : Reader String :=
  String.ofList <$>
    ((do return (← date) ++ (← Reader.option timeOfDay).getD []) <|> time)

def boolean : Reader Bool :=
  (Reader.literal "true" *> pure true) <|> (Reader.literal "false" *> pure false)

/-- A value that holds no others. -/
def scalar : Reader Toml :=
  (.string <$> string) <|> (.datetime <$> datetime) <|>
    (.float <$> written (decimalFloat <|> specialFloat)) <|> (.integer <$> integer) <|>
    (.boolean <$> boolean)

end Wireframe.Toml.Grammar
