import Wireframe.Preview
import Wireframe.Proofs.Html.Tags

/-! The boxes of a layout, as tags. What they are hangs on the shape of the layout alone, every
node has one at its level, and the labels are those of the nodes. -/

namespace Wireframe

/-- A layout without what its nodes are and how its groups lie. -/
inductive Shape
  | leaf
  | box (content : Shape)
  | group (children : List Shape)
  deriving Repr

namespace Layout

variable {ι : Type}

mutual
def shape : Layout ι → Shape
  | .leaf _ => .leaf
  | .box _ content => .box content.shape
  | .group _ children => .group (shapes children)

def shapes : List (Layout ι) → List Shape
  | [] => []
  | item :: rest => item.shape :: shapes rest
end

mutual
/-- Every node with those that it lies in, in the order of `nodes`. -/
def surrounded (around : List (Node ι)) : Layout ι → List (Node ι × List (Node ι))
  | .leaf node => [(node, around)]
  | .box node content => (node, around) :: content.surrounded (node :: around)
  | .group _ children => surroundedAll around children

def surroundedAll (around : List (Node ι)) : List (Layout ι) → List (Node ι × List (Node ι))
  | [] => []
  | item :: rest => item.surrounded around ++ surroundedAll around rest
end

mutual
def groups : Layout ι → Nat
  | .leaf _ => 0
  | .box _ content => content.groups
  | .group _ children => groupsAll children + 1

def groupsAll : List (Layout ι) → Nat
  | [] => 0
  | item :: rest => item.groups + groupsAll rest
end

mutual
theorem map_fst_surrounded (around : List (Node ι)) : (layout : Layout ι) →
    (layout.surrounded around).map Prod.fst = layout.nodes
  | .leaf _ => rfl
  | .box node content => by simp [surrounded, nodes, map_fst_surrounded (node :: around) content]
  | .group _ children => map_fst_surroundedAll around children

theorem map_fst_surroundedAll (around : List (Node ι)) : (items : List (Layout ι)) →
    (surroundedAll around items).map Prod.fst = nodesAll items
  | [] => rfl
  | item :: rest => by
      simp [surroundedAll, nodesAll, map_fst_surrounded around item,
        map_fst_surroundedAll around rest]
end

end Layout

namespace Preview

open Html (Tag Token)

/-- A tag without the values of its attributes, but for classes and the numbers of scenes. -/
def blank : Tag → Tag
  | .start name attributes =>
      .start name (attributes.map fun (key, value) =>
        (key, if key = "class" ∨ key = "data-scene" then value else ""))
  | .stop name => .stop name
  | .declaration => .declaration

/-! What the tags of a layout are, without the values of most attributes. -/

def nodeTags (level : Nat) (inside : List Tag) : List Tag :=
  [.start "div" [("class", "luming-node level-" ++ toString level), ("style", "")],
    .start "div" [("class", "luming-label")], .stop "div"] ++ inside ++ [.stop "div"]

mutual
/-- The tags of a shape that lies in `level` nodes. -/
def shapeTags (level : Nat) : Shape → List Tag
  | .leaf => nodeTags level []
  | .box content => nodeTags level (shapeTags (level + 1) content)
  | .group children =>
      .start "div" [("class", "luming-group"), ("style", "")] ::
        (shapesTags level children ++ [.stop "div"])

def shapesTags (level : Nat) : List Shape → List Tag
  | [] => []
  | item :: rest => shapeTags level item ++ shapesTags level rest
end

/-! The tags of the boxes. -/

section Boxes

variable {ι : Type} (settings : PreviewSettings)

/-- The start tag of a node that lies in `level` others. -/
def nodeStart (level : Nat) (node : Node ι) : Tag :=
  .start "div" [("class", "luming-node level-" ++ toString level),
    ("style", Html.escape (inlineStyle (settings.nodeStyles.overlay node.styles)))]

def labelStart : Tag :=
  .start "div" [("class", "luming-label")]

def groupStart (direction : Direction) : Tag :=
  .start "div" [("class", "luming-group"), ("style", Html.escape (groupStyle settings direction))]

theorem written_node (level : Nat) (style : String) :
    Html.written [("class", "luming-node level-" ++ toString level), ("style", style)] =
      [("class", "luming-node level-" ++ toString level), ("style", Html.escape style)] := by
  have plain : Html.escape "luming-node level-" = "luming-node level-" := by decide +kernel
  rw [Html.written_cons, Html.escape_append, plain, Html.escape_toString]
  rfl

theorem written_label :
    Html.written [("class", "luming-label")] = [("class", "luming-label")] := by
  decide +kernel

theorem written_group (style : String) :
    Html.written [("class", "luming-group"), ("style", style)] =
      [("class", "luming-group"), ("style", Html.escape style)] := by
  have plain : Html.escape "luming-group" = "luming-group" := by decide +kernel
  rw [Html.written_cons, plain]
  rfl

theorem tags_nodeBox (level : Nat) (node : Node ι) (content : List Html) :
    Html.tags (nodeBox settings level node content).tokens =
      nodeStart settings level node :: labelStart :: .stop "div" ::
        (Html.tags (Html.tokensAll content) ++ [.stop "div"]) := by
  rw [nodeBox, Html.tags_element, Html.tags_cons, Html.tags_element, Html.tags_cons,
    Html.tags_text, written_node, written_label]
  rfl

theorem tags_group (level : Nat) (direction : Direction) (children : List (Layout ι)) :
    Html.tags (layoutBox settings level (.group direction children)).tokens =
      groupStart settings direction ::
        (Html.tags (Html.tokensAll (layoutBoxes settings level children)) ++ [.stop "div"]) := by
  rw [layoutBox, Html.tags_element, written_group]
  rfl

theorem tags_box (level : Nat) (node : Node ι) (content : Layout ι) :
    Html.tags (layoutBox settings level (.box node content)).tokens =
      nodeStart settings level node :: labelStart :: .stop "div" ::
        (Html.tags (layoutBox settings (level + 1) content).tokens ++ [.stop "div"]) := by
  rw [layoutBox, tags_nodeBox, Html.tags_cons, Html.tokensAll]
  simp [Html.tags]

theorem tags_leaf (level : Nat) (node : Node ι) :
    Html.tags (layoutBox settings level (.leaf node)).tokens =
      [nodeStart settings level node, labelStart, .stop "div", .stop "div"] := by
  rw [layoutBox, tags_nodeBox]
  rfl

theorem tags_layoutBoxes_cons (level : Nat) (item : Layout ι) (rest : List (Layout ι)) :
    Html.tags (Html.tokensAll (layoutBoxes settings level (item :: rest))) =
      Html.tags (layoutBox settings level item).tokens ++
        Html.tags (Html.tokensAll (layoutBoxes settings level rest)) := by
  rw [layoutBoxes, Html.tags_cons]

mutual
theorem map_blank_layoutBox (level : Nat) : (layout : Layout ι) →
    (Html.tags (layoutBox settings level layout).tokens).map blank =
      shapeTags level layout.shape
  | .leaf node => by
      rw [tags_leaf]
      rfl
  | .box node content => by
      rw [tags_box, List.map_cons, List.map_cons, List.map_cons, List.map_append,
        map_blank_layoutBox (level + 1) content]
      rfl
  | .group direction children => by
      rw [tags_group, List.map_cons, List.map_append, map_blank_layoutBoxes level children]
      rfl

theorem map_blank_layoutBoxes (level : Nat) : (items : List (Layout ι)) →
    (Html.tags (Html.tokensAll (layoutBoxes settings level items))).map blank =
      shapesTags level (Layout.shapes items)
  | [] => rfl
  | item :: rest => by
      rw [tags_layoutBoxes_cons, List.map_append, map_blank_layoutBox level item,
        map_blank_layoutBoxes level rest]
      rfl
end

/-! Which tags of a layout are those of nodes and of groups. -/

theorem hasClass_node (level : Nat) (node : Node ι) (name : String) :
    (nodeStart settings level node).hasClass name = ("luming-node" == name) := by
  have word : ("luming-node level-" ++ toString level).toList.takeWhile (· ≠ ' ') =
      "luming-node".toList := by simp
  exact Tag.hasClass_eq rfl word name

theorem hasClass_label (name : String) : labelStart.hasClass name = ("luming-label" == name) :=
  Tag.hasClass_eq rfl (by decide +kernel) name

theorem hasClass_group (direction : Direction) (name : String) :
    (groupStart settings direction).hasClass name = ("luming-group" == name) :=
  Tag.hasClass_eq rfl (by decide +kernel) name

section Filter

variable {keep : Tag → Bool} (stop : keep (.stop "div") = false)
include stop

theorem filter_stop : [Tag.stop "div"].filter keep = [] :=
  List.filter_cons_of_neg (by simp [stop])

theorem filter_group (level : Nat) (direction : Direction) (children : List (Layout ι)) :
    (Html.tags (layoutBox settings level (.group direction children)).tokens).filter keep =
      [groupStart settings direction].filter keep ++
        (Html.tags (Html.tokensAll (layoutBoxes settings level children))).filter keep := by
  rw [tags_group, ← List.singleton_append, List.filter_append, List.filter_append,
    filter_stop stop, List.append_nil]

variable (label : keep labelStart = false)
include label

theorem filter_label (rest : List Tag) :
    (labelStart :: .stop "div" :: rest).filter keep = rest.filter keep := by
  rw [List.filter_cons_of_neg (by simp [label]), List.filter_cons_of_neg (by simp [stop])]

theorem filter_leaf (level : Nat) (node : Node ι) :
    (Html.tags (layoutBox settings level (.leaf node)).tokens).filter keep =
      [nodeStart settings level node].filter keep := by
  have apart : [nodeStart settings level node, labelStart, .stop "div", .stop "div"] =
      [nodeStart settings level node] ++ labelStart :: .stop "div" :: [.stop "div"] := rfl
  rw [tags_leaf, apart, List.filter_append, filter_label stop label, filter_stop stop,
    List.append_nil]

theorem filter_box (level : Nat) (node : Node ι) (content : Layout ι) :
    (Html.tags (layoutBox settings level (.box node content)).tokens).filter keep =
      [nodeStart settings level node].filter keep ++
        (Html.tags (layoutBox settings (level + 1) content).tokens).filter keep := by
  rw [tags_box, ← List.singleton_append, List.filter_append, filter_label stop label,
    List.filter_append, filter_stop stop, List.append_nil]

end Filter

mutual
/-- There is a tag for every node, in the order of the nodes. -/
theorem filter_node_layoutBox (around : List (Node ι)) : (layout : Layout ι) →
    (Html.tags (layoutBox settings around.length layout).tokens).filter
        (·.hasClass "luming-node") =
      (layout.surrounded around).map fun (node, around) =>
        nodeStart settings around.length node
  | .leaf node => by
      rw [filter_leaf settings rfl (hasClass_label _),
        List.filter_cons_of_pos (hasClass_node settings _ node _)]
      rfl
  | .box node content => by
      have inside := filter_node_layoutBox (node :: around) content
      rw [List.length_cons] at inside
      rw [filter_box settings rfl (hasClass_label _),
        List.filter_cons_of_pos (hasClass_node settings _ node _), inside]
      rfl
  | .group direction children => by
      have notNode : ¬ (groupStart settings direction).hasClass "luming-node" := by
        rw [hasClass_group]
        decide
      rw [filter_group settings rfl, List.filter_cons_of_neg notNode,
        filter_node_layoutBoxes around children]
      rfl

theorem filter_node_layoutBoxes (around : List (Node ι)) : (items : List (Layout ι)) →
    (Html.tags (Html.tokensAll (layoutBoxes settings around.length items))).filter
        (·.hasClass "luming-node") =
      (Layout.surroundedAll around items).map fun (node, around) =>
        nodeStart settings around.length node
  | [] => rfl
  | item :: rest => by
      rw [tags_layoutBoxes_cons, List.filter_append, filter_node_layoutBox around item,
        filter_node_layoutBoxes around rest, Layout.surroundedAll, List.map_append]
end

mutual
theorem length_filter_group_layoutBox (level : Nat) : (layout : Layout ι) →
    ((Html.tags (layoutBox settings level layout).tokens).filter
      (·.hasClass "luming-group")).length = layout.groups
  | .leaf node => by
      have notGroup : ¬ (nodeStart settings level node).hasClass "luming-group" := by
        rw [hasClass_node]
        decide
      rw [filter_leaf settings rfl (hasClass_label _), List.filter_cons_of_neg notGroup]
      rfl
  | .box node content => by
      have notGroup : ¬ (nodeStart settings level node).hasClass "luming-group" := by
        rw [hasClass_node]
        decide
      rw [filter_box settings rfl (hasClass_label _), List.filter_cons_of_neg notGroup]
      exact length_filter_group_layoutBox (level + 1) content
  | .group direction children => by
      rw [filter_group settings rfl,
        List.filter_cons_of_pos (hasClass_group settings direction _), List.length_append,
        length_filter_group_layoutBoxes level children, Nat.add_comm]
      rfl

theorem length_filter_group_layoutBoxes (level : Nat) : (items : List (Layout ι)) →
    ((Html.tags (Html.tokensAll (layoutBoxes settings level items))).filter
      (·.hasClass "luming-group")).length = Layout.groupsAll items
  | [] => rfl
  | item :: rest => by
      rw [tags_layoutBoxes_cons, List.filter_append, List.length_append,
        length_filter_group_layoutBox level item, length_filter_group_layoutBoxes level rest]
      rfl
end

theorem opens_node (level : Nat) (node : Node ι) (name : String) :
    (nodeStart settings level node).opens name = (name == "div") := rfl

theorem opens_label (name : String) : labelStart.opens name = (name == "div") := rfl

theorem opens_group (direction : Direction) (name : String) :
    (groupStart settings direction).opens name = (name == "div") := rfl

mutual
theorem filter_opens_layoutBox {name : String} (other : name ≠ "div") (level : Nat) :
    (layout : Layout ι) →
      (Html.tags (layoutBox settings level layout).tokens).filter (·.opens name) = []
  | .leaf node => by
      have label : labelStart.opens name = false := by simp [opens_label, other]
      rw [filter_leaf settings rfl label,
        List.filter_cons_of_neg (by simp [opens_node, other])]
      rfl
  | .box node content => by
      have label : labelStart.opens name = false := by simp [opens_label, other]
      rw [filter_box settings rfl label,
        List.filter_cons_of_neg (by simp [opens_node, other]),
        filter_opens_layoutBox other (level + 1) content]
      rfl
  | .group direction children => by
      rw [filter_group settings rfl, List.filter_cons_of_neg (by simp [opens_group, other]),
        filter_opens_layoutBoxes other level children]
      rfl

theorem filter_opens_layoutBoxes {name : String} (other : name ≠ "div") (level : Nat) :
    (items : List (Layout ι)) →
      (Html.tags (Html.tokensAll (layoutBoxes settings level items))).filter (·.opens name) = []
  | [] => rfl
  | item :: rest => by
      rw [tags_layoutBoxes_cons, List.filter_append, filter_opens_layoutBox other level item,
        filter_opens_layoutBoxes other level rest]
      rfl
end

/-! Boxes can be read, and their labels are those of the nodes. -/

theorem readable_nodeBox {level : Nat} {node : Node ι} {content : List Html}
    (inside : Html.ReadableAll content) : (nodeBox settings level node content).Readable := by
  have name : Html.IsName "div" := by decide +kernel
  have outer : ∀ key ∈ ["class", "style"], Html.IsName key := by decide +kernel
  have inner : ∀ key ∈ ["class"], Html.IsName key := by decide +kernel
  have labelled : (Html.element "div" [("class", "luming-label")]
      [.text (label settings node)]).Readable :=
    ⟨name, by decide, List.forall_mem_map.mp inner, trivial, trivial⟩
  exact ⟨name, by decide, List.forall_mem_map.mp outer, labelled, inside⟩

mutual
theorem readable_layoutBox (level : Nat) : (layout : Layout ι) →
    (layoutBox settings level layout).Readable
  | .leaf _ => readable_nodeBox settings trivial
  | .box _ content => readable_nodeBox settings ⟨readable_layoutBox (level + 1) content, trivial⟩
  | .group direction children => by
      have name : Html.IsName "div" := by decide +kernel
      have keys : ∀ key ∈ ["class", "style"], Html.IsName key := by decide +kernel
      exact ⟨name, by decide, List.forall_mem_map.mp keys, readable_layoutBoxes level children⟩

theorem readable_layoutBoxes (level : Nat) : (items : List (Layout ι)) →
    Html.ReadableAll (layoutBoxes settings level items)
  | [] => trivial
  | item :: rest => ⟨readable_layoutBox level item, readable_layoutBoxes level rest⟩
end

def isLabel (tag : Tag) : Bool :=
  tag.opens "div" && tag.hasClass "luming-label"

theorem encloses_isLabel : Html.Encloses isLabel where
  notVoid name attributes isVoid := by
    obtain rfl : name = "meta" := beq_iff_eq.mp isVoid
    rfl
  notStop _ := rfl

theorem isLabel_node (level : Nat) (node : Node ι) :
    isLabel (nodeStart settings level node) = false := by
  rw [isLabel, hasClass_node]
  rfl

theorem isLabel_label : isLabel labelStart = true := by
  rw [isLabel, hasClass_label]
  rfl

theorem isLabel_group (direction : Direction) :
    isLabel (groupStart settings direction) = false := by
  rw [isLabel, hasClass_group]
  rfl

theorem kept_nodeBox (level : Nat) (node : Node ι) (content : List Html) :
    (nodeBox settings level node content).kept isLabel =
      Html.escape (label settings node) :: Html.keptAll isLabel content := by
  have outer := isLabel_node settings level node
  have inner := isLabel_label
  have text : Html.textAhead (Html.tokensAll [.text (label settings node)]) =
      (Html.escape (label settings node)).toList := by
    rw [Html.tokensAll, Html.tokensAll, List.append_nil, Html.tokens, Html.textAhead_chars]
  rw [nodeStart] at outer
  rw [labelStart] at inner
  rw [nodeBox, Html.kept, written_node, if_neg (Bool.eq_false_iff.mp outer), Html.keptAll,
    Html.kept, written_label, if_pos inner, text, String.ofList_toList]
  rfl

mutual
theorem kept_layoutBox (level : Nat) : (layout : Layout ι) →
    (layoutBox settings level layout).kept isLabel =
      layout.nodes.map fun node => Html.escape (label settings node)
  | .leaf node => kept_nodeBox settings level node []
  | .box node content => by
      rw [layoutBox, kept_nodeBox, Html.keptAll, kept_layoutBox (level + 1) content, Html.keptAll,
        List.append_nil, Layout.nodes, List.map_cons]
  | .group direction children => by
      have group := isLabel_group settings direction
      rw [groupStart] at group
      rw [layoutBox, Html.kept, written_group, if_neg (Bool.eq_false_iff.mp group)]
      exact kept_layoutBoxes level children

theorem kept_layoutBoxes (level : Nat) : (items : List (Layout ι)) →
    Html.keptAll isLabel (layoutBoxes settings level items) =
      (Layout.nodesAll items).map fun node => Html.escape (label settings node)
  | [] => rfl
  | item :: rest => by
      rw [layoutBoxes, Html.keptAll, kept_layoutBox level item, kept_layoutBoxes level rest,
        Layout.nodesAll, List.map_append]
end

end Boxes

end Preview

end Wireframe
