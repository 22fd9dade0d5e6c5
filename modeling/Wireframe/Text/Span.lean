/-! Positions in a text count bytes of its UTF-8 form. -/

namespace Wireframe.Text

/-- A half-open range of positions. -/
structure Span where
  start : Nat
  stop : Nat
  deriving Repr, DecidableEq

/-- The range from the start of one span to the end of another. -/
def Span.join (first last : Span) : Span :=
  ⟨first.start, last.stop⟩

/-- The number of bytes of the UTF-8 form. -/
def byteSize : List Char → Nat
  | [] => 0
  | c :: rest => c.utf8Size + byteSize rest

@[simp] theorem byteSize_nil : byteSize [] = 0 := rfl

@[simp] theorem byteSize_cons (c : Char) (rest : List Char) :
    byteSize (c :: rest) = c.utf8Size + byteSize rest := rfl

@[simp] theorem byteSize_append (left right : List Char) :
    byteSize (left ++ right) = byteSize left + byteSize right := by
  induction left with
  | nil => simp
  | cons c rest ih => simp [ih, Nat.add_assoc]

/-- What is left from a byte position on, if a character starts or the text ends there. -/
def dropBytes? : Nat → List Char → Option (List Char)
  | 0, text => some text
  | _ + 1, [] => none
  | position + 1, c :: rest =>
      if c.utf8Size ≤ position + 1 then dropBytes? (position + 1 - c.utf8Size) rest else none

/-- The number of characters before a byte position, if a character starts or the text
ends there. -/
def charOffset? (position : Nat) (text : List Char) : Option Nat :=
  (dropBytes? position text).map fun rest => text.length - rest.length

end Wireframe.Text
