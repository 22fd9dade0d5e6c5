/-! Layout expressions. A row stands side by side, a column stands on top of each
other, and a container gives a named entity its content. -/

namespace Wireframe

inductive Direction
  | row
  | column
  deriving Repr, DecidableEq

def Direction.keyword : Direction → String
  | .row => "row"
  | .column => "column"

inductive Expr
  | entity (name : String)
  | group (direction : Direction) (children : List Expr)
  | container (name : String) (content : Expr)
  deriving Repr, BEq, Inhabited

/-- The items that an expression contributes to a group of the given direction. -/
def Expr.splice (direction : Direction) : Expr → List Expr
  | .group inner children =>
      if inner = direction then children else [.group inner children]
  | item => [item]

/-- Joins items into a group: one item stays as it is, and an item that is itself a
group of this direction gives its children. -/
def Expr.join (direction : Direction) : List Expr → Expr
  | [item] => item
  | items => .group direction (items.flatMap (Expr.splice direction))

@[simp] theorem Expr.join_singleton (direction : Direction) (item : Expr) :
    Expr.join direction [item] = item := rfl

mutual
/-- The names at the top, seen through groups and not into containers. -/
def Expr.topLevel : Expr → List String
  | .entity name => [name]
  | .group _ children => Expr.topLevelAll children
  | .container name _ => [name]

def Expr.topLevelAll : List Expr → List String
  | [] => []
  | item :: rest => item.topLevel ++ Expr.topLevelAll rest
end

mutual
/-- Every name, a container before its content and children from left to right. -/
def Expr.references : Expr → List String
  | .entity name => [name]
  | .group _ children => Expr.referencesAll children
  | .container name content => name :: content.references

def Expr.referencesAll : List Expr → List String
  | [] => []
  | item :: rest => item.references ++ Expr.referencesAll rest
end

theorem Expr.topLevelAll_eq_flatMap (items : List Expr) :
    Expr.topLevelAll items = items.flatMap Expr.topLevel := by
  induction items with
  | nil => rfl
  | cons item rest ih => simp [Expr.topLevelAll, ih]

theorem Expr.referencesAll_eq_flatMap (items : List Expr) :
    Expr.referencesAll items = items.flatMap Expr.references := by
  induction items with
  | nil => rfl
  | cons item rest ih => simp [Expr.referencesAll, ih]

end Wireframe
