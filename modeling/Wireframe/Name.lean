/-! Entity names: a letter, then letters, digits and underscores, all of ASCII. -/

namespace Wireframe.Name

def isHead (c : Char) : Bool :=
  c.isAlpha

def isTail (c : Char) : Bool :=
  c.isAlphanum || c == '_'

/-- The shape of a name that the notation can write. -/
def IsPlain (name : String) : Prop :=
  ∃ head tail, name.toList = head :: tail ∧ isHead head ∧ ∀ c ∈ tail, isTail c

end Wireframe.Name
