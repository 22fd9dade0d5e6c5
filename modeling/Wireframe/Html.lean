/-! HTML trees and their written form. Texts and attribute values are escaped, so
nothing in them can begin or end a tag. -/

namespace Wireframe

inductive Html
  | text (content : String)
  | verbatim (content : String)
  | void (tag : String) (attributes : List (String × String))
  | element (tag : String) (attributes : List (String × String)) (children : List Html)
  deriving Repr

namespace Html

def escapeChar (c : Char) : List Char :=
  match c with
  | '&' => "&amp;".toList
  | '<' => "&lt;".toList
  | '>' => "&gt;".toList
  | '"' => "&quot;".toList
  | '\'' => "&#39;".toList
  | _ => [c]

/-- Writes the characters that markup is made of as entities. -/
def escape (text : String) : String :=
  String.ofList (text.toList.flatMap escapeChar)

def printAttributes : List (String × String) → String
  | [] => ""
  | (name, value) :: rest => " " ++ name ++ "=\"" ++ escape value ++ "\"" ++ printAttributes rest

mutual
def print : Html → String
  | .text content => escape content
  | .verbatim content => content
  | .void tag attributes => "<" ++ tag ++ printAttributes attributes ++ " />"
  | .element tag attributes children =>
      "<" ++ tag ++ printAttributes attributes ++ ">" ++ printAll children ++ "</" ++ tag ++ ">"

def printAll : List Html → String
  | [] => ""
  | item :: rest => item.print ++ printAll rest
end

end Html

end Wireframe
