import Wireframe.Style
import Wireframe.Text.Digit

/-! The built-in style dictionary: backgrounds, corners, classes, widths, and any
other property by its own name. -/

namespace Wireframe.Shorthand

open Text

/-- Tells whether a character may stand in the name of a property. -/
def isPropertyChar (c : Char) : Bool :=
  c.isAlpha || c == '-'

/-- The words that are classes on their own. -/
def classes : List (List Char) :=
  ["tab".toList, "card".toList, "label".toList]

/-- Bare numbers become pixel lengths. -/
def pixels (value : List Char) : List Char :=
  if isNumeral value then value ++ "px".toList else value

def isPercentage (text : List Char) : Bool :=
  text.getLast? == some '%' && isNumeral text.dropLast

/-- A property name, blanks, and a value on one line. -/
def property? (text : List Char) : Option Declaration :=
  let key := text.takeWhile isPropertyChar
  let tail := text.dropWhile isPropertyChar
  let value := trimStart tail
  if key ≠ [] ∧ tail ≠ value ∧ value ≠ [] ∧ '\n' ∉ value then
    some ⟨String.ofList key, String.ofList value⟩
  else none

/-- The declaration of a trimmed token, the first rule that fits. -/
def resolveTrimmed (text : List Char) : Option Declaration :=
  match words text with
  | [] => none
  | head :: tail =>
      let rest := [' '].intercalate tail
      if head = "bg".toList ∧ rest ≠ [] then
        some ⟨"background-color", String.ofList rest⟩
      else if head = "rd".toList ∧ rest ≠ [] then
        some ⟨"border-radius", String.ofList (pixels rest)⟩
      else if head ∈ classes then
        some ⟨"class", String.ofList head⟩
      else if isNumeral text then
        some ⟨"width", String.ofList (text ++ ['%'])⟩
      else if isPercentage text then
        some ⟨"width", String.ofList text⟩
      else property? text

def resolve : Resolver :=
  fun token => resolveTrimmed (trim token.toList)

end Wireframe.Shorthand
