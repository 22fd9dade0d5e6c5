import Mathlib
import Wireframe.Proofs.Expansion.Ancestry
import Wireframe.Proofs.Expansion.Scenes
import Wireframe.Style.Shorthand

/-! Expansion keeps the shape of what it unrolls. The content of every node that goes on has
the groups and the names of the content it comes from, written in its container or stored in
its template. The styles of every node, cut or not, are those of its template. -/

namespace Wireframe

/-- The groups of an expression or a layout around the names at its top. -/
inductive Outline
  | name (name : String)
  | group (direction : Direction) (children : List Outline)
  deriving Repr

mutual
def Expr.outline : Expr → Outline
  | .entity name => .name name
  | .group direction children => .group direction (Expr.outlines children)
  | .container name _ => .name name

def Expr.outlines : List Expr → List Outline
  | [] => []
  | item :: rest => item.outline :: Expr.outlines rest
end

theorem Expr.named_or_group (expression : Expr) :
    (∃ name, expression.outline = .name name) ∨
      ∃ direction children, expression = .group direction children := by
  cases expression with
  | entity name => exact .inl ⟨name, rfl⟩
  | group direction children => exact .inr ⟨direction, children, rfl⟩
  | container name content => exact .inl ⟨name, rfl⟩

namespace Layout

mutual
def outline : Layout ι → Outline
  | .leaf node => .name node.template
  | .box node _ => .name node.template
  | .group direction children => .group direction (outlines children)

def outlines : List (Layout ι) → List Outline
  | [] => []
  | item :: rest => item.outline :: outlines rest
end

theorem outline_block (block : Block ι) : block.layout.outline = .name block.node.template := by
  rcases block with ⟨node, _ | content⟩ <;> rfl

mutual
theorem outline_forget : (layout : Layout ι) → layout.forget.outline = layout.outline
  | .leaf _ => rfl
  | .box _ _ => rfl
  | .group _ children => by rw [forget, outline, outline, outlines_forgetAll children]

theorem outlines_forgetAll : (items : List (Layout ι)) →
    outlines (forgetAll items) = outlines items
  | [] => rfl
  | item :: rest => by
      rw [forgetAll, outlines, outlines, outline_forget item, outlines_forgetAll rest]
end

end Layout

namespace Registry

variable {registry : Registry} {path : List String} {nested : Bool}

mutual
theorem outline_expand (registry : Registry) (path : List String) (nested : Bool) :
    (expression : Expr) → (registry.expand path nested expression).outline = expression.outline
  | .entity name => by
      obtain ⟨block, equal, gives, -⟩ := registry.exists_block_entity path nested name
      rw [equal, Layout.outline_block, gives.template]
      rfl
  | .group direction children => by
      rw [expand, Layout.outline, Expr.outline, outlines_expandAll registry path nested children]
  | .container name content => by
      obtain ⟨block, equal, gives, -⟩ :=
        registry.exists_block_container path nested (fun _ => False) name content
      rw [equal, Layout.outline_block, gives.template]
      rfl

theorem outlines_expandAll (registry : Registry) (path : List String) (nested : Bool) :
    (items : List Expr) →
      Layout.outlines (registry.expandAll path nested items) = Expr.outlines items
  | [] => by rw [expandAll, Layout.outlines, Expr.outlines]
  | item :: rest => by
      rw [expandAll, Layout.outlines, Expr.outlines, outline_expand registry path nested item,
        outlines_expandAll registry path nested rest]
end

/-- What a place with a name is to be filled with: the content written there or that of the
template. -/
def content? (registry : Registry) : Expr → Option Expr
  | .entity name => (registry.get? name).bind (·.content)
  | .container _ content => some content
  | .group _ _ => none

/-- The place, in the source or in a stored content, that the node at an address is made
from. -/
def origin? (registry : Registry) : Expr → List Layout.Step → Option Expr
  | .group _ children, .child index :: rest => children[index]?.bind (registry.origin? · rest)
  | .group _ _, _ => none
  | place, [] => some place
  | place, .inside :: rest => (registry.content? place).bind (registry.origin? · rest)
  | _, .child _ :: _ => none

/-- The occurrence at an address is that of the origin of the node there. -/
theorem occurrence?_eq_bind_origin? (registry : Registry) (place : Expr)
    (address : List Layout.Step) :
    registry.occurrence? place address =
      (registry.origin? place address).bind (registry.occurrence? · []) := by
  induction address generalizing place with
  | nil => cases place <;> rfl
  | cons step rest ih =>
      cases place with
      | entity name =>
          cases step with
          | child index => rfl
          | inside =>
              simp only [occurrence?, origin?, content?, ih, Option.bind_assoc]
      | container name content =>
          cases step with
          | child index => rfl
          | inside => exact ih content
      | group direction children =>
          cases step with
          | inside => rfl
          | child index =>
              simp only [occurrence?, origin?, ih, Option.bind_assoc]

/-- A node has the styles of its template, and if it is not terminated, the content that its
origin calls for. -/
structure Mirrors (registry : Registry) (origin : Expr) (block : Block ι) : Prop where
  name : origin.outline = .name block.node.template
  content : block.node.terminated = false →
    block.content.map Layout.outline = (registry.content? origin).map Expr.outline
  styles : ∀ template, registry.get? block.node.template = some template →
    block.node.styles = template.styles

theorem Mirrors.of_forget {origin : Expr} {block : Block ι}
    (mirrors : registry.Mirrors origin block.forget) : registry.Mirrors origin block where
  name := mirrors.name
  content := by
    intro continued
    rw [← mirrors.content continued, Block.forget, Option.map_map]
    congr 1
    funext content
    exact content.outline_forget.symm
  styles := mirrors.styles

theorem mirrors_unknown {origin : Expr} {name : String} (named : origin.outline = .name name)
    (missing : registry.get? name = none) (styles : StyleMap) :
    registry.Mirrors origin (⟨⟨(), name, styles, true⟩, none⟩ : Block Unit) where
  name := named
  content := nofun
  styles := by
    intro template found
    rw [missing] at found
    cases found

theorem styles_eq_of_get? {name : String} {template other : Template}
    (found : registry.get? name = some template) (again : registry.get? name = some other) :
    template.styles = other.styles := by
  rw [found] at again
  cases again
  rfl

theorem mirrors_cut {origin : Expr} {name : String} {template : Template}
    (named : origin.outline = .name name) (found : registry.get? name = some template) :
    registry.Mirrors origin (⟨⟨(), name, template.styles, true⟩, none⟩ : Block Unit) where
  name := named
  content := nofun
  styles := fun _ again => styles_eq_of_get? found again

theorem mirrors_unrolled {origin : Expr} {name : String} {template : Template}
    (path : List String) (named : origin.outline = .name name)
    (found : registry.get? name = some template) :
    registry.Mirrors origin
      (⟨⟨(), name, template.styles, false⟩,
        (registry.content? origin).map (registry.expand (name :: path) true)⟩ : Block Unit) where
  name := named
  content := by
    intro _
    rw [Option.map_map]
    congr 1
    funext content
    exact registry.outline_expand (name :: path) true content
  styles := fun _ again => styles_eq_of_get? found again

/-- Wherever a place with a name is unrolled, it becomes a node that mirrors it, around
what its content is unrolled to. -/
theorem exists_mirrors {origin : Expr} {name : String} (path : List String) (nested : Bool)
    (named : origin.outline = .name name) :
    ∃ block : Block Unit, registry.expand path nested origin = block.layout ∧
      registry.Mirrors origin block ∧
      ∀ inner, block.content = some inner → ∃ content,
        registry.content? origin = some content ∧
          registry.expand (name :: path) true content = inner := by
  cases origin with
  | group direction children => cases named
  | entity other =>
      obtain rfl := Outline.name.inj named
      cases found : registry.get? other with
      | none =>
          exact ⟨⟨⟨(), other, .empty, true⟩, none⟩, expand_entity_unknown found,
            mirrors_unknown rfl found .empty, nofun⟩
      | some template =>
          by_cases cut : nested = true ∧ other ∈ path
          · exact ⟨⟨⟨(), other, template.styles, true⟩, none⟩, expand_entity_cut found cut,
              mirrors_cut rfl found, nofun⟩
          · have stored : registry.content? (.entity other) = template.content := by
              rw [content?, found, Option.bind_some]
            have unrolled := mirrors_unrolled path named found
            rw [stored] at unrolled
            refine ⟨_, expand_entity found cut, unrolled, ?_⟩
            intro inner content
            rw [stored]
            exact Option.map_eq_some_iff.mp content
  | container other content =>
      obtain rfl := Outline.name.inj named
      cases found : registry.get? other with
      | none =>
          exact ⟨⟨⟨(), other, .empty, true⟩, none⟩, expand_container_unknown found,
            mirrors_unknown rfl found .empty, nofun⟩
      | some template =>
          refine ⟨_, expand_container found, mirrors_unrolled path named found, ?_⟩
          intro inner unrolled
          exact Option.map_eq_some_iff.mp unrolled

theorem origin?_nil {place : Expr} {name : String} (named : place.outline = .name name) :
    registry.origin? place [] = some place := by
  cases place with
  | entity other => rfl
  | container other content => rfl
  | group direction children => cases named

theorem origin?_inside {place : Expr} {name : String} (named : place.outline = .name name)
    (rest : List Layout.Step) :
    registry.origin? place (.inside :: rest) =
      (registry.content? place).bind (registry.origin? · rest) := by
  cases place with
  | entity other => rfl
  | container other content => rfl
  | group direction children => cases named

theorem mirrors_of_locate? {expression : Expr} {address : List Layout.Step}
    {above : List (Node Unit)} {block : Block Unit}
    (located : (registry.expand path nested expression).locate? address = some (above, block)) :
    ∃ origin, registry.origin? expression address = some origin ∧
      registry.Mirrors origin block := by
  -- the address leads down the layout and the places of the source at once
  induction address generalizing expression path nested above with
  | nil =>
      cases expression.named_or_group with
      | inl named =>
          obtain ⟨name, named⟩ := named
          obtain ⟨unrolled, equal, mirrors, -⟩ := exists_mirrors path nested named
          rw [equal, Layout.locate?_block_nil] at located
          cases located
          exact ⟨expression, origin?_nil named, mirrors⟩
      | inr grouped =>
          obtain ⟨direction, children, rfl⟩ := grouped
          rw [expand_group] at located
          cases located
  | cons step rest ih =>
      cases expression.named_or_group with
      | inl named =>
          obtain ⟨name, named⟩ := named
          obtain ⟨unrolled, equal, -, contents⟩ := exists_mirrors path nested named
          rw [equal] at located
          cases step with
          | child index =>
              rw [Layout.locate?_block_child] at located
              cases located
          | inside =>
              rw [Layout.locate?_block_inside, Option.bind_eq_some_iff] at located
              obtain ⟨inner, hasContent, located⟩ := located
              obtain ⟨⟨below, found⟩, inInner, same⟩ := Option.map_eq_some_iff.mp located
              cases same
              obtain ⟨content, stands, rfl⟩ := contents inner hasContent
              obtain ⟨origin, leads, mirrors⟩ := ih inInner
              refine ⟨origin, ?_, mirrors⟩
              rw [origin?_inside named, stands, Option.bind_some, leads]
      | inr grouped =>
          obtain ⟨direction, children, rfl⟩ := grouped
          rw [expand_group] at located
          cases step with
          | inside => cases located
          | child index =>
              rw [Layout.locate?, List.getElem?_map, Option.bind_eq_some_iff] at located
              obtain ⟨unrolled, child, inChild⟩ := located
              obtain ⟨item, found, rfl⟩ := Option.map_eq_some_iff.mp child
              obtain ⟨origin, leads, mirrors⟩ := ih inChild
              refine ⟨origin, ?_, mirrors⟩
              rw [origin?, found, Option.bind_some, leads]

/-- A node that an address leads to comes from the occurrence there and mirrors it. -/
theorem exists_origin {place : Expr} {layout : Layout ι} {address : List Layout.Step}
    {above : List (Node ι)} {block : Block ι}
    (unrolled : layout.forget = registry.expand [] nested place)
    (located : layout.locate? address = some (above, block)) :
    ∃ origin occurrence, registry.origin? place address = some origin ∧
      registry.occurrence? origin [] = some occurrence ∧
      occurrence.Gives registry (· ∈ above.map (·.template)) block ∧
      registry.Mirrors origin block := by
  have forgotten := Layout.locate?_forget layout address
  rw [located, unrolled] at forgotten
  obtain ⟨origin, leads, mirrors⟩ := mirrors_of_locate? forgotten
  obtain ⟨occurrence, occurs, gives⟩ := gives_of_forget unrolled located
  rw [occurrence?_eq_bind_origin?, leads, Option.bind_some] at occurs
  exact ⟨origin, occurrence, leads, occurs, gives, mirrors.of_forget⟩

end Registry

namespace Document

variable (document : Document) (roots : List String)

theorem map_forget_scenes :
    (document.expand roots).scenes.map Layout.forget = document.scenes roots := by
  rw [← Layout.forgetAll_eq_map]
  exact Layout.forgetAll_numberAll 1 (document.scenes roots)

theorem exists_place_of_scene {index : Nat} {scene : Layout String}
    (found : (document.expand roots).scenes[index]? = some scene) :
    ∃ place nested, (document.places roots)[index]? = some place ∧
      scene.forget = document.templates.expand [] nested place := by
  have forgotten : (document.scenes roots)[index]? = some scene.forget := by
    rw [← document.map_forget_scenes roots, List.getElem?_map, found, Option.map_some]
  rw [← document.map_unroll_calls roots, List.getElem?_map] at forgotten
  obtain ⟨call, asked, unrolled⟩ := Option.map_eq_some_iff.mp forgotten
  refine ⟨call.source, call.nested, ?_, ?_⟩
  · rw [← document.map_source_calls roots, List.getElem?_map, asked, Option.map_some]
  · rw [← unrolled, call.unroll_eq]

theorem map_outline_scenes :
    (document.expand roots).scenes.map Layout.outline =
      (document.places roots).map Expr.outline := by
  have forgotten : (document.expand roots).scenes.map Layout.outline =
      (document.scenes roots).map Layout.outline := by
    rw [← document.map_forget_scenes roots, List.map_map]
    exact List.map_congr_left fun scene _ => scene.outline_forget.symm
  rw [forgotten, ← document.map_unroll_calls roots, ← document.map_source_calls roots,
    List.map_map, List.map_map]
  apply List.map_congr_left
  intro call _
  rw [Function.comp_apply, Function.comp_apply, call.unroll_eq]
  exact document.templates.outline_expand [] call.nested call.source

end Document

/-- The scenes are what one context answers with, one for each layout line or, without any,
for each root, and they have the outlines of these. Every node of a scene comes from the
occurrence that its address leads to, which decides whether it is terminated, and mirrors it,
with the templates as the whole source leaves them. -/
theorem Compilation.scenes_mirror (resolve : Resolver) (purpose : Purpose)
    (roots : List String) (source : String) :
    let document := Document.parse resolve source
    let scenes := (ofSource resolve purpose roots source).scenes
    (∃ after, Context.Answers document.templates ⟨.start, ∅⟩ (document.calls roots) scenes
      after) ∧
    (document.expressions ≠ [] →
      scenes.map Layout.outline = document.expressions.map Expr.outline) ∧
    (document.expressions = [] →
      scenes.map Layout.outline =
        (if roots = [] then document.templates.inferRoots else roots).map Outline.name) ∧
    ∀ (index : Nat) (scene : Layout String), scenes[index]? = some scene →
      ∃ place, (document.places roots)[index]? = some place ∧
        ∀ address above block, scene.locate? address = some (above, block) →
          ∃ origin occurrence, document.templates.origin? place address = some origin ∧
            document.templates.occurrence? origin [] = some occurrence ∧
            occurrence.Gives document.templates (· ∈ above.map (·.template)) block ∧
            document.templates.Mirrors origin block := by
  intro document scenes
  have outlines : scenes.map Layout.outline = (document.places roots).map Expr.outline :=
    document.map_outline_scenes roots
  refine ⟨?answers, ?structured, ?unstructured, ?nodes⟩
  case answers =>
    obtain ⟨after, answers, -⟩ := document.answers_expand roots
    exact ⟨after, answers⟩
  case structured =>
    intro structured
    rw [outlines, document.places_of_structured roots structured]
  case unstructured =>
    intro unstructured
    rw [outlines, document.places_of_unstructured roots unstructured, List.map_map]
    rfl
  case nodes =>
    intro index scene found
    obtain ⟨place, nested, listed, unrolled⟩ := document.exists_place_of_scene roots found
    refine ⟨place, listed, ?_⟩
    intro address above block located
    exact Registry.exists_origin unrolled located

/-- A node that is cut has the styles that come after its line, and a source without layout
lines has a scene for each template. -/
theorem Compilation.scenes_mirror_loop :
    let compilation := ofSource Shorthand.resolve .preview [] "a[a]\na: bg red"
    let templates := compilation.document.templates
    let styles : StyleMap := .ofList [⟨"background-color", "red"⟩]
    let inner : Node String := ⟨"a_2", "a", styles, true⟩
    compilation.scenes = [.box ⟨"a_1", "a", styles, false⟩ (.leaf inner)] ∧
    compilation.scenes.map Layout.outline = [.name "a"] ∧
    (∃ origin occurrence,
      templates.origin? (.container "a" (.entity "a")) [.inside] = some origin ∧
      templates.occurrence? origin [] = some occurrence ∧
      occurrence.Gives templates (· ∈ ["a"]) ⟨inner, none⟩ ∧
      templates.Mirrors origin ⟨inner, none⟩) ∧
    (ofSource Shorthand.resolve .preview [] "b: bg red").scenes.map Layout.outline =
      [.name "b"] := by
  intro compilation templates styles inner
  have lines : (Document.parse Shorthand.resolve "a[a]\na: bg red").expressions =
      [.container "a" (.entity "a")] := by cbv
  have listed : ((Document.parse Shorthand.resolve "a[a]\na: bg red").places [])[0]? =
      some (.container "a" (.entity "a")) := by
    rw [Document.places_of_structured _ _ (by simp [lines]), lines]
    rfl
  have scenes : compilation.scenes = [.box ⟨"a_1", "a", styles, false⟩ (.leaf inner)] := by cbv
  have first : compilation.scenes[0]? =
      some (.box ⟨"a_1", "a", styles, false⟩ (.leaf inner)) := by
    rw [scenes]
    rfl
  obtain ⟨-, structured, -, nodes⟩ :=
    scenes_mirror Shorthand.resolve .preview [] "a[a]\na: bg red"
  obtain ⟨place, isPlace, located⟩ := nodes 0 _ first
  rw [listed] at isPlace
  cases isPlace
  obtain ⟨-, -, unstructured, -⟩ := scenes_mirror Shorthand.resolve .preview [] "b: bg red"
  have bare : (Document.parse Shorthand.resolve "b: bg red").expressions = [] := by cbv
  have inferred : (Document.parse Shorthand.resolve "b: bg red").templates.inferRoots = ["b"] := by
    cbv
  refine ⟨scenes, ?_, located [.inside] _ _ rfl, ?_⟩
  · rw [structured (by simp [lines]), lines]
    rfl
  · rw [unstructured bare, if_pos rfl, inferred]
    rfl

end Wireframe
