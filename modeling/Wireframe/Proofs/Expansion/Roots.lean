import Wireframe.Proofs.Document.References

/-! Scenes and roots. The roots are the blocks at the top of the scenes. With layout lines
these have the names at the top of the lines, whatever roots are asked for. Without any, no
template has content, so each name that is asked for becomes a leaf and a scene of its own. -/

namespace Wireframe

mutual
def Outline.topLevel : Outline → List String
  | .name entity => [entity]
  | .group _ children => Outline.topLevelAll children

def Outline.topLevelAll : List Outline → List String
  | [] => []
  | item :: rest => item.topLevel ++ Outline.topLevelAll rest
end

mutual
theorem Expr.topLevel_outline : (expression : Expr) →
    expression.outline.topLevel = expression.topLevel
  | .entity _ => rfl
  | .group _ children => Expr.topLevelAll_outlines children
  | .container _ _ => rfl

theorem Expr.topLevelAll_outlines : (items : List Expr) →
    Outline.topLevelAll (Expr.outlines items) = Expr.topLevelAll items
  | [] => rfl
  | item :: rest => by
      rw [Expr.outlines, Outline.topLevelAll, Expr.topLevelAll, Expr.topLevel_outline item,
        Expr.topLevelAll_outlines rest]
end

namespace Layout

mutual
theorem topLevel_outline : (layout : Layout ι) →
    layout.outline.topLevel = layout.topLevel.map (·.node.template)
  | .leaf _ => rfl
  | .box _ _ => rfl
  | .group _ children => topLevelAll_outlines children

theorem topLevelAll_outlines : (items : List (Layout ι)) →
    Outline.topLevelAll (outlines items) = (topLevelAll items).map (·.node.template)
  | [] => rfl
  | item :: rest => by
      rw [outlines, Outline.topLevelAll, topLevelAll, List.map_append, topLevel_outline item,
        topLevelAll_outlines rest]
end

theorem numberAll_leaves (rank : Nat) (nodes : List (Node ι)) :
    numberAll rank (nodes.map leaf) =
      (nodes.zipIdx rank).map fun (node, rank) => leaf (node.number rank) := by
  induction nodes generalizing rank with
  | nil => rfl
  | cons node rest ih =>
      rw [List.map_cons, numberAll, size, ih, List.zipIdx_cons, List.map_cons]
      rfl

end Layout

namespace Registry

variable {registry : Registry}

def Bare (registry : Registry) : Prop :=
  ∀ template ∈ registry.templates, template.content = none

/-- The node of a name that has no content to unroll. -/
def plainNode (registry : Registry) (name : String) : Node Unit :=
  match registry.get? name with
  | some template => ⟨(), name, template.styles, false⟩
  | none => ⟨(), name, .empty, true⟩

namespace Bare

theorem inferRoots (bare : registry.Bare) : registry.inferRoots = registry.names := by
  have unreferenced : (registry.templates.flatMap fun template =>
      template.content.elim [] Expr.references) = [] := by
    rw [List.flatMap_eq_nil_iff]
    intro template member
    rw [bare template member, Option.elim_none]
  unfold Registry.inferRoots
  simp [unreferenced]

theorem instantiate (bare : registry.Bare) (name : String) :
    registry.instantiate name none true = .leaf (registry.plainNode name) := by
  rw [Registry.instantiate, Option.elim_none, plainNode]
  cases found : registry.get? name with
  | none => exact expand_entity_unknown found
  | some template =>
      have empty := bare template (List.mem_of_find?_eq_some found)
      rw [expand_entity found (by simp), empty]
      rfl

end Bare

end Registry

namespace Document

/-- The names that are unrolled if there are no layout lines. -/
def selected (document : Document) (roots : List String) : List String :=
  if roots = [] then document.templates.inferRoots else roots

variable {document : Document} {roots : List String}

theorem calls_of_unstructured (unstructured : document.expressions = []) :
    document.calls roots = (document.selected roots).map fun name => .entity name none true := by
  simp [calls, selected, unstructured]

theorem calls_of_structured (structured : document.expressions ≠ []) :
    document.calls roots = document.expressions.map fun expression => .layout expression false := by
  simp [calls, structured]

theorem expand_of_structured (structured : document.expressions ≠ []) (others : List String) :
    document.expand others = document.expand roots := by
  simp [expand, scenes, structured]

theorem scenes_of_bare (unstructured : document.expressions = []) (bare : document.templates.Bare) :
    (document.expand roots).scenes =
      ((document.selected roots).zipIdx 1).map fun (name, rank) =>
        .leaf ((document.templates.plainNode name).number rank) := by
  have leaves : document.scenes roots =
      ((document.selected roots).map document.templates.plainNode).map .leaf := by
    rw [← map_unroll_calls, calls_of_unstructured unstructured, List.map_map, List.map_map]
    exact List.map_congr_left fun name _ => bare.instantiate name
  rw [expand, leaves, Layout.numberAll_leaves, List.zipIdx_map, List.map_map]
  rfl

theorem map_topLevel_scenes (structured : document.expressions ≠ []) :
    (document.expand roots).scenes.map (fun scene => scene.topLevel.map (·.node.template)) =
      document.expressions.map Expr.topLevel := by
  have outlines := document.map_outline_scenes roots
  rw [document.places_of_structured roots structured] at outlines
  have tops := congrArg (List.map Outline.topLevel) outlines
  rw [List.map_map, List.map_map] at tops
  simpa only [Function.comp_def, Layout.topLevel_outline, Expr.topLevel_outline] using tops

/-- Content is only ever given by the layout lines that are recorded. -/
theorem bare_of_unstructured (resolve : Resolver) (source : String)
    (unstructured : (parse resolve source).expressions = []) :
    (parse resolve source).templates.Bare := by
  intro template member
  rw [(summarizes_lines resolve source).content template member]
  apply Record.content?_eq_none
  rw [← contents_parse, unstructured]
  exact nofun

end Document

/-- The roots are the blocks at the top of the scenes. With layout lines the scenes are what
one context answers them with, the names at the top of a scene are those at the top of its
line, and the result does not hang on the roots that are asked for. Without any, no template
has content, every template is a root unless others are asked for, and the roots are what one
context answers the selected names with, which are leaves, terminated only if a name has no
template. -/
theorem Compilation.roots_agree (resolve : Resolver) (purpose : Purpose) (roots : List String)
    (source : String) :
    let document := Document.parse resolve source
    let compilation := ofSource resolve purpose roots source
    compilation.roots = compilation.scenes.flatMap Layout.topLevel ∧
    (document.expressions ≠ [] →
      (∃ after, Context.Answers document.templates ⟨.start, ∅⟩
        (document.expressions.map fun expression => .layout expression false)
        compilation.scenes after) ∧
      compilation.scenes.map (fun scene => scene.topLevel.map (·.node.template)) =
        document.expressions.map Expr.topLevel ∧
      ∀ others, ofSource resolve purpose others source = compilation) ∧
    (document.expressions = [] →
      let selected := if roots = [] then document.templates.names else roots
      document.templates.Bare ∧
      document.templates.inferRoots = document.templates.names ∧
      (∃ after, Context.Answers document.templates ⟨.start, ∅⟩
        (selected.map fun name => .entity name none true)
        (compilation.roots.map Block.layout) after) ∧
      compilation.scenes = compilation.roots.map Block.layout ∧
      compilation.roots = (selected.zipIdx 1).map fun (name, rank) =>
        ⟨(document.templates.plainNode name).number rank, none⟩) := by
  intro document compilation
  obtain ⟨after, answers, -⟩ := document.answers_expand roots
  refine ⟨rfl, ?structured, ?unstructured⟩
  case structured =>
    intro structured
    rw [Document.calls_of_structured structured] at answers
    refine ⟨⟨after, answers⟩, Document.map_topLevel_scenes structured, ?_⟩
    intro others
    exact congrArg (Compilation.mk purpose document)
      (Document.expand_of_structured structured others)
  case unstructured =>
    intro unstructured selected
    have bare := Document.bare_of_unstructured resolve source unstructured
    have names : document.selected roots = selected := by
      rw [Document.selected, bare.inferRoots]
    have leaves : compilation.scenes = _ := Document.scenes_of_bare unstructured bare
    rw [names] at leaves
    have blocks : compilation.roots = (selected.zipIdx 1).map fun (name, rank) =>
        ⟨(document.templates.plainNode name).number rank, none⟩ := by
      rw [show compilation.roots = compilation.scenes.flatMap Layout.topLevel from rfl, leaves,
        List.flatMap_map, List.map_eq_flatMap]
      rfl
    have own : compilation.scenes = compilation.roots.map Block.layout := by
      rw [leaves, blocks, List.map_map]
      rfl
    rw [Document.calls_of_unstructured unstructured, names] at answers
    exact ⟨bare, bare.inferRoots, ⟨after, own ▸ answers⟩, own, blocks⟩

end Wireframe
