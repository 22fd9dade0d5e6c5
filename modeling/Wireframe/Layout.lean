import Wireframe.Expr
import Wireframe.Style

/-! Layouts of instances. A node is one instance of a template and a layout arranges
nodes; what tells the nodes apart is left open, so that layouts can be built first and
numbered afterwards. -/

namespace Wireframe

/-- One instance of a template. It is terminated if expansion stopped there. -/
structure Node (ι : Type) where
  id : ι
  template : String
  styles : StyleMap
  terminated : Bool
  deriving Repr, DecidableEq

/-- An arrangement of nodes: one without content, one around its content, or several
side by side or on top of each other. -/
inductive Layout (ι : Type)
  | leaf (node : Node ι)
  | box (node : Node ι) (content : Layout ι)
  | group (direction : Direction) (children : List (Layout ι))
  deriving Repr

/-- A node together with its content. -/
structure Block (ι : Type) where
  node : Node ι
  content : Option (Layout ι)
  deriving Repr

def Block.layout (block : Block ι) : Layout ι :=
  match block.content with
  | none => .leaf block.node
  | some content => .box block.node content

namespace Layout

mutual
/-- The blocks at the top, seen through groups and not into blocks. -/
def topLevel : Layout ι → List (Block ι)
  | .leaf node => [⟨node, none⟩]
  | .box node content => [⟨node, some content⟩]
  | .group _ children => topLevelAll children

def topLevelAll : List (Layout ι) → List (Block ι)
  | [] => []
  | item :: rest => item.topLevel ++ topLevelAll rest
end

mutual
/-- Every node, a node before its content and children from left to right. -/
def nodes : Layout ι → List (Node ι)
  | .leaf node => [node]
  | .box node content => node :: content.nodes
  | .group _ children => nodesAll children

def nodesAll : List (Layout ι) → List (Node ι)
  | [] => []
  | item :: rest => item.nodes ++ nodesAll rest
end

mutual
/-- The number of nodes. -/
def size : Layout ι → Nat
  | .leaf _ => 1
  | .box _ content => content.size + 1
  | .group _ children => sizeAll children

def sizeAll : List (Layout ι) → Nat
  | [] => 0
  | item :: rest => item.size + sizeAll rest
end

end Layout

/-- Names a node by its template and its rank. -/
def Node.number (rank : Nat) (node : Node ι) : Node String :=
  { node with id := node.template ++ "_" ++ toString rank }

namespace Layout

mutual
/-- Ranks the nodes from `rank` on, in the order of `nodes`. -/
def number (rank : Nat) : Layout ι → Layout String
  | .leaf node => .leaf (node.number rank)
  | .box node content => .box (node.number rank) (content.number (rank + 1))
  | .group direction children => .group direction (numberAll rank children)

/-- Ranks the nodes of several layouts, each after the one before. -/
def numberAll (rank : Nat) : List (Layout ι) → List (Layout String)
  | [] => []
  | item :: rest => item.number rank :: numberAll (rank + item.size) rest
end

theorem topLevelAll_eq_flatMap (items : List (Layout ι)) :
    topLevelAll items = items.flatMap topLevel := by
  induction items with
  | nil => rfl
  | cons item rest ih => simp [topLevelAll, ih]

theorem nodesAll_eq_flatMap (items : List (Layout ι)) :
    nodesAll items = items.flatMap nodes := by
  induction items with
  | nil => rfl
  | cons item rest ih => simp [nodesAll, ih]

mutual
theorem length_nodes : (layout : Layout ι) → layout.nodes.length = layout.size
  | .leaf _ => rfl
  | .box _ content => by simp [nodes, size, length_nodes content]
  | .group _ children => by simp [nodes, size, length_nodesAll children]

theorem length_nodesAll : (items : List (Layout ι)) → (nodesAll items).length = sizeAll items
  | [] => rfl
  | item :: rest => by simp [nodesAll, sizeAll, length_nodes item, length_nodesAll rest]
end

mutual
/-- Numbering gives the nodes consecutive ranks in their order. -/
theorem nodes_number (rank : Nat) : (layout : Layout ι) →
    (layout.number rank).nodes = (layout.nodes.zipIdx rank).map fun (node, k) => node.number k
  | .leaf _ => rfl
  | .box _ content => by simp [number, nodes, nodes_number (rank + 1) content]
  | .group _ children => by simp [number, nodes, nodes_numberAll rank children]

theorem nodes_numberAll (rank : Nat) : (items : List (Layout ι)) →
    nodesAll (numberAll rank items) =
      ((nodesAll items).zipIdx rank).map fun (node, k) => node.number k
  | [] => rfl
  | item :: rest => by
      simp [numberAll, nodesAll, nodes_number rank item,
        nodes_numberAll (rank + item.size) rest, List.zipIdx_append, length_nodes]
end

end Layout

end Wireframe
