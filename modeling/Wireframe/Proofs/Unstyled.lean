import Wireframe.Compilation
import Wireframe.Proofs.Document.Draft
import Wireframe.Proofs.Document.Templates
import Wireframe.Proofs.Expansion

/-! Compilations without their styles. What style tokens mean decides about style maps and
about warnings, and about nothing else. -/

namespace Wireframe

def Template.unstyled (template : Template) : Template :=
  { template with styles := .empty }

def Registry.unstyled (registry : Registry) : Registry :=
  ⟨registry.templates.map Template.unstyled⟩

def Node.unstyled (node : Node ι) : Node ι :=
  { node with styles := .empty }

namespace Layout

mutual
/-- The same nodes in the same places, without their styles. -/
def unstyled : Layout ι → Layout ι
  | .leaf node => .leaf node.unstyled
  | .box node content => .box node.unstyled content.unstyled
  | .group direction children => .group direction (unstyledAll children)

def unstyledAll : List (Layout ι) → List (Layout ι)
  | [] => []
  | item :: rest => item.unstyled :: unstyledAll rest
end

end Layout

def Block.unstyled (block : Block ι) : Block ι :=
  ⟨block.node.unstyled, block.content.map Layout.unstyled⟩

/-- The document without styles and without warnings. -/
def Document.unstyled (document : Document) : Document :=
  ⟨document.source, document.statements, document.templates.unstyled, document.errors⟩

def Expansion.unstyled (expansion : Expansion) : Expansion :=
  ⟨expansion.scenes.map Layout.unstyled, expansion.diagnostics⟩

/-! Templates grow alike. -/

namespace Registry

variable {registry : Registry} {name : String} {line : Nat}

theorem names_unstyled : registry.unstyled.names = registry.names := by
  rw [names, unstyled, List.map_map]
  rfl

theorem get?_unstyled : registry.unstyled.get? name = (registry.get? name).map .unstyled :=
  List.find?_map ..

theorem contains_unstyled : registry.unstyled.contains name = registry.contains name := by
  rw [contains, unstyled, List.any_map]
  rfl

theorem unstyled_ensure :
    (registry.ensure name line).unstyled = registry.unstyled.ensure name line := by
  unfold ensure
  rw [contains_unstyled]
  split
  · rfl
  · rw [unstyled, List.map_append]
    rfl

theorem unstyled_modify {change : Template → Template} (same : Template → Template)
    (commutes : ∀ template, (change template).unstyled = same template.unstyled) :
    (registry.modify name change).unstyled = registry.unstyled.modify name same := by
  rw [unstyled, modify, modify, unstyled, List.map_map, List.map_map]
  congr 2
  funext template
  simp only [Function.comp_apply]
  rw [apply_ite Template.unstyled, commutes]
  rfl

theorem modify_id : registry.modify name id = registry := by
  simp [modify]

theorem unstyled_applyAll_style (known : name ∈ registry.names) (line : Nat)
    (declarations : List Declaration) :
    (registry.applyAll (declarations.map (.style name line))).unstyled = registry.unstyled := by
  induction declarations generalizing registry with
  | nil => rfl
  | cons declaration rest ih =>
      have names : (registry.modify name (Template.applyStyle declaration)).names =
          registry.names := names_modify registry name fun _ => rfl
      -- a style changes the template that is there, and only what is not looked at
      have hidden : ∀ template : Template,
          (template.applyStyle declaration).unstyled = id template.unstyled := fun _ => rfl
      have kept : (registry.modify name (Template.applyStyle declaration)).unstyled =
          registry.unstyled := by rw [unstyled_modify id hidden, modify_id]
      have later := (ih (names ▸ known)).trans kept
      rw [← later, List.map_cons, applyAll, List.foldl_cons, apply, ensure_of_mem known]
      rfl

theorem unstyled_applyAll_styled (resolve : Resolver) (styled : List (String × List String)) :
    (registry.applyAll (styled.flatMap fun (entity, tokens) =>
        .sight entity line :: (tokens.filterMap resolve).map (.style entity line))).unstyled =
      registry.unstyled.applyAll (styled.map fun (entity, _) => .sight entity line) := by
  induction styled generalizing registry with
  | nil => rfl
  | cons first rest ih =>
      obtain ⟨entity, tokens⟩ := first
      have known : entity ∈ (registry.ensure entity line).names := mem_names_ensure.mpr (.inr rfl)
      have declared := unstyled_applyAll_style known line (tokens.filterMap resolve)
      rw [unstyled_ensure] at declared
      rw [List.flatMap_cons, applyAll_append, ih, List.map_cons]
      exact congrArg (applyAll · _) declared

mutual
theorem unstyled_register (registry : Registry) (line : Nat) : (expression : Expr) →
    (registry.applyAll (expression.edits line)).unstyled =
      registry.unstyled.applyAll (expression.edits line)
  | .entity _ => unstyled_ensure
  | .group _ children => unstyled_registerAll registry line children
  | .container name content => by
      have given : (registry.apply (.content name line content)).unstyled =
          registry.unstyled.apply (.content name line content) := by
        rw [apply, unstyled_modify (Template.setContent content) fun _ => rfl,
          unstyled_ensure]
        rfl
      have inside := unstyled_register (registry.apply (.content name line content)) line content
      rw [given] at inside
      exact inside

theorem unstyled_registerAll (registry : Registry) (line : Nat) : (items : List Expr) →
    (registry.applyAll (Expr.editsAll line items)).unstyled =
      registry.unstyled.applyAll (Expr.editsAll line items)
  | [] => rfl
  | item :: rest => by
      rw [Expr.editsAll, applyAll_append, applyAll_append, unstyled_registerAll _ line rest,
        unstyled_register registry line item]
end

end Registry

/-- The edits of a line whose style tokens mean nothing. -/
def Line.bareEdits (number : Nat) (line : Line) : List Registry.Edit :=
  line.styled.map (fun (entity, _) => .sight entity number) ++
    line.expression?.elim [] (Expr.edits number)

theorem Registry.unstyled_line {registry : Registry} (resolve : Resolver) (number : Nat)
    (line : Line) : (registry.applyAll (line.edits resolve number)).unstyled =
      registry.unstyled.applyAll (line.bareEdits number) := by
  rw [Line.edits, Line.bareEdits, applyAll_append, applyAll_append]
  cases line.expression? with
  | none => exact unstyled_applyAll_styled resolve line.styled
  | some expression =>
      rw [Option.elim_some, unstyled_register, unstyled_applyAll_styled]

theorem Registry.unstyled_lines {registry : Registry} (resolve : Resolver)
    (numbered : List (List Char × Nat)) :
    (registry.applyAll (numbered.flatMap fun pair =>
        (Line.ofSource pair.1).edits resolve pair.2)).unstyled =
      registry.unstyled.applyAll (numbered.flatMap fun pair =>
        (Line.ofSource pair.1).bareEdits pair.2) := by
  induction numbered generalizing registry with
  | nil => rfl
  | cons first rest ih =>
      rw [List.flatMap_cons, List.flatMap_cons, applyAll_append, applyAll_append, ih,
        unstyled_line]

/-! Lines come to the same statements and errors. -/

namespace Contribution

variable (resolve other : Resolver) (number : Nat) (source : List Char)

theorem ofLine_alike :
    (ofLine resolve number source).statements = (ofLine other number source).statements ∧
      (ofLine resolve number source).errors = (ofLine other number source).errors := by
  unfold ofLine
  by_cases blank : Text.trim source = []
  · simp only [blank, if_true, and_self]
  · simp only [blank, if_false]
    cases Labelled.ofText? (Text.trim source) with
    | some label =>
        refine ⟨rfl, ?_⟩
        rw [errors_append, errors_append, errors_ofStyles, errors_ofStyles]
    | none =>
        simp only
        constructor
        · rw [join_ofStyles, join_ofStyles]
          rfl
        · rw [errors_append, errors_append, errors_join_ofStyles, errors_join_ofStyles]

end Contribution

/-! Expansion reads styles only to copy them. -/

namespace Layout

theorem unstyledAll_eq_map (items : List (Layout ι)) :
    unstyledAll items = items.map unstyled := by
  induction items with
  | nil => rfl
  | cons item rest ih => rw [unstyledAll, ih, List.map_cons]

mutual
theorem nodes_unstyled : (layout : Layout ι) →
    layout.unstyled.nodes = layout.nodes.map Node.unstyled
  | .leaf _ => rfl
  | .box node content => by rw [unstyled, nodes, nodes, nodes_unstyled content, List.map_cons]
  | .group _ children => by rw [unstyled, nodes, nodes, nodesAll_unstyled children]

theorem nodesAll_unstyled : (items : List (Layout ι)) →
    nodesAll (unstyledAll items) = (nodesAll items).map Node.unstyled
  | [] => rfl
  | item :: rest => by
      rw [unstyledAll, nodesAll, nodesAll, nodes_unstyled item, nodesAll_unstyled rest,
        List.map_append]
end

theorem size_unstyled (layout : Layout ι) : layout.unstyled.size = layout.size := by
  rw [← length_nodes, ← length_nodes, nodes_unstyled, List.length_map]

mutual
theorem unstyled_number (rank : Nat) : (layout : Layout ι) →
    (layout.number rank).unstyled = layout.unstyled.number rank
  | .leaf _ => rfl
  | .box _ content => by
      rw [number, unstyled, unstyled, number, unstyled_number (rank + 1) content]
      rfl
  | .group _ children => by
      rw [number, unstyled, unstyled, number, unstyledAll_numberAll rank children]

theorem unstyledAll_numberAll (rank : Nat) : (items : List (Layout ι)) →
    unstyledAll (numberAll rank items) = numberAll rank (unstyledAll items)
  | [] => rfl
  | item :: rest => by
      rw [numberAll, unstyledAll, unstyledAll, numberAll, unstyled_number rank item,
        unstyledAll_numberAll (rank + item.size) rest, size_unstyled]
end

mutual
theorem topLevel_unstyled : (layout : Layout ι) →
    layout.unstyled.topLevel = layout.topLevel.map Block.unstyled
  | .leaf _ => rfl
  | .box _ _ => rfl
  | .group _ children => topLevelAll_unstyled children

theorem topLevelAll_unstyled : (items : List (Layout ι)) →
    topLevelAll (unstyledAll items) = (topLevelAll items).map Block.unstyled
  | [] => rfl
  | item :: rest => by
      rw [unstyledAll, topLevelAll, topLevelAll, topLevel_unstyled item,
        topLevelAll_unstyled rest, List.map_append]
end

end Layout

namespace Registry

variable {registry : Registry}

theorem unstyled_expand (registry : Registry) (path : List String) (nested : Bool)
    (expression : Expr) :
    (registry.expand path nested expression).unstyled =
      registry.unstyled.expand path nested expression := by
  -- each lookup finds the same template but for its styles, so both sides take the same branch
  refine Registry.expand.induct registry
    (fun path nested expression => (registry.expand path nested expression).unstyled =
      registry.unstyled.expand path nested expression)
    (fun path nested items => Layout.unstyledAll (registry.expandAll path nested items) =
      registry.unstyled.expandAll path nested items)
    ?unknown ?cut ?empty ?stored ?group ?unknownContainer ?container ?nil ?cons
    path nested expression
  case unknown =>
    intro path nested name missing
    rw [expand_entity_unknown missing, expand_entity_unknown (by rw [get?_unstyled, missing]; rfl)]
    rfl
  case cut =>
    intro path nested name template found cut
    rw [expand_entity_cut found cut,
      expand_entity_cut (by rw [get?_unstyled, found]; rfl) cut]
    rfl
  case empty =>
    intro path nested name template found uncut bare
    rw [expand_entity found uncut, bare,
      expand_entity (by rw [get?_unstyled, found]; rfl) uncut, Template.unstyled, bare]
    rfl
  case stored =>
    intro path nested name template found uncut content stored ih
    rw [expand_entity found uncut, stored,
      expand_entity (by rw [get?_unstyled, found]; rfl) uncut, Template.unstyled, stored,
      Option.map_some, Option.map_some, ← ih]
    rfl
  case group =>
    intro path nested direction children ih
    rw [expand, expand, ← ih]
    rfl
  case unknownContainer =>
    intro path nested name content missing
    rw [expand_container_unknown missing,
      expand_container_unknown (by rw [get?_unstyled, missing]; rfl)]
    rfl
  case container =>
    intro path nested name content template found ih
    rw [expand_container found, expand_container (by rw [get?_unstyled, found]; rfl), ← ih]
    rfl
  case nil =>
    intro path nested
    rw [expandAll, expandAll]
    rfl
  case cons =>
    intro path nested item rest ihItem ihRest
    rw [expandAll, expandAll, Layout.unstyledAll, ihItem, ihRest]

theorem inferRoots_unstyled : registry.unstyled.inferRoots = registry.inferRoots := by
  unfold inferRoots
  rw [names_unstyled, unstyled, List.flatMap_map]
  rfl

theorem unknownTemplates_unstyled (layout : Layout ι) :
    registry.unstyled.unknownTemplates layout.unstyled = registry.unknownTemplates layout := by
  rw [unknownTemplates, unknownTemplates, Layout.nodes_unstyled, List.filter_map, List.map_map]
  congr 1
  apply List.filter_congr
  intro node _
  rw [Function.comp_apply, contains_unstyled]
  rfl

end Registry

namespace Document

theorem scenes_unstyled (document : Document) (roots : List String) :
    document.unstyled.scenes roots = (document.scenes roots).map Layout.unstyled := by
  have inferred : document.unstyled.templates.inferRoots = document.templates.inferRoots :=
    Registry.inferRoots_unstyled
  have expanded : Layout.unstyled ∘ document.templates.expand [] false =
      document.templates.unstyled.expand [] false :=
    funext fun expression => document.templates.unstyled_expand [] false expression
  have instantiated :
      (Layout.unstyled ∘ fun name => document.templates.instantiate name none true) =
        fun name => document.templates.unstyled.instantiate name none true :=
    funext fun name => document.templates.unstyled_expand [] true (.entity name)
  unfold scenes
  rw [apply_ite (List.map Layout.unstyled), List.map_map, List.map_map, expanded, instantiated,
    inferred]
  rfl

theorem unstyled_expand (document : Document) (roots : List String) :
    (document.expand roots).unstyled = document.unstyled.expand roots := by
  have unknown : (document.scenes roots).flatMap document.templates.unknownTemplates =
      (document.unstyled.scenes roots).flatMap document.unstyled.templates.unknownTemplates := by
    rw [scenes_unstyled, List.flatMap_map]
    congr 1
    funext layout
    exact (Registry.unknownTemplates_unstyled layout).symm
  rw [expand, Expansion.unstyled, unknown, ← Layout.unstyledAll_eq_map,
    Layout.unstyledAll_numberAll, Layout.unstyledAll_eq_map, ← scenes_unstyled]
  rfl

theorem unstyled_parse (resolve other : Resolver) (source : String) :
    (parse resolve source).unstyled = (parse other source).unstyled := by
  have alike := fun pair : List Char × Nat =>
    Contribution.ofLine_alike resolve other pair.2 pair.1
  unfold unstyled
  rw [statements_parse, statements_parse, errors_parse, errors_parse, templates_parse,
    templates_parse, Registry.unstyled_lines, Registry.unstyled_lines]
  simp only [alike]
  rfl

end Document

/-- Two compilations that differ in nothing but style maps and warnings about style tokens. -/
structure Compilation.Alike (first second : Compilation) : Prop where
  purpose : first.purpose = second.purpose
  source : first.document.source = second.document.source
  statements : first.document.statements = second.document.statements
  templates : first.document.templates.unstyled = second.document.templates.unstyled
  defaultChildren : first.document.templates.templates.map Template.defaultChildren =
    second.document.templates.templates.map Template.defaultChildren
  errors : first.diagnostics.filter (·.isError) = second.diagnostics.filter (·.isError)
  roots : first.roots.map Block.unstyled = second.roots.map Block.unstyled
  scenes : first.scenes.map Layout.unstyled = second.scenes.map Layout.unstyled
  warnings : ∀ diagnostic ∈ first.diagnostics ++ second.diagnostics,
    diagnostic.isError = false → ∃ token line, diagnostic = .unsupportedStyle token line

namespace Compilation

variable (resolve other : Resolver) (purpose : Purpose) (roots : List String) (source : String)

theorem unstyled_expansion : (ofSource resolve purpose roots source).expansion.unstyled =
    (ofSource other purpose roots source).expansion.unstyled := by
  rw [ofSource, ofSource, Document.unstyled_expand, Document.unstyled_expand,
    Document.unstyled_parse resolve other]

theorem map_unstyled_roots (compilation : Compilation) :
    compilation.roots.map Block.unstyled =
      (compilation.scenes.map Layout.unstyled).flatMap Layout.topLevel := by
  rw [roots, Expansion.roots, List.map_flatMap, List.flatMap_map]
  congr 1
  funext layout
  exact layout.topLevel_unstyled.symm

theorem exists_unsupportedStyle {diagnostic : Diagnostic}
    (member : diagnostic ∈ (ofSource resolve purpose roots source).diagnostics)
    (notError : diagnostic.isError = false) :
    ∃ token line, diagnostic = .unsupportedStyle token line := by
  cases List.mem_append.mp member with
  | inl inDocument =>
      have warning : diagnostic ∈ (Document.parse resolve source).warnings :=
        List.mem_filter.mpr ⟨inDocument, by simp [notError]⟩
      rw [Document.warnings_parse] at warning
      obtain ⟨pair, -, inLine⟩ := List.mem_flatMap.mp warning
      obtain ⟨token, -, rfl⟩ := List.mem_map.mp inLine
      exact ⟨token, pair.2, rfl⟩
  | inr inExpansion =>
      obtain ⟨scene, -, unknown⟩ := List.mem_flatMap.mp inExpansion
      obtain ⟨node, -, rfl⟩ := List.mem_map.mp unknown
      cases notError

theorem errors_diagnostics (compilation : Compilation) :
    compilation.diagnostics.filter (·.isError) =
      compilation.document.unstyled.diagnostics ++
        compilation.expansion.unstyled.diagnostics.filter (·.isError) :=
  List.filter_append ..

theorem map_defaultChildren (registry : Registry) :
    registry.templates.map Template.defaultChildren =
      registry.unstyled.templates.map Template.defaultChildren := by
  rw [Registry.unstyled, List.map_map]
  rfl

theorem alike_of_unstyled {first second : Compilation} (purpose : first.purpose = second.purpose)
    (document : first.document.unstyled = second.document.unstyled)
    (expansion : first.expansion.unstyled = second.expansion.unstyled)
    (warnings : ∀ diagnostic ∈ first.diagnostics ++ second.diagnostics,
      diagnostic.isError = false → ∃ token line, diagnostic = .unsupportedStyle token line) :
    first.Alike second := by
  obtain ⟨source, statements, templates, -⟩ := Document.mk.inj document
  obtain ⟨scenes, -⟩ := Expansion.mk.inj expansion
  constructor
  case purpose => exact purpose
  case source => exact source
  case statements => exact statements
  case templates => exact templates
  case defaultChildren =>
    rw [map_defaultChildren first.document.templates, templates, ← map_defaultChildren]
  case errors => rw [errors_diagnostics, errors_diagnostics, document, expansion]
  case roots =>
    rw [map_unstyled_roots, map_unstyled_roots]
    exact congrArg _ scenes
  case scenes => exact scenes
  case warnings => exact warnings

/-- What style tokens mean has no influence on the structure of a compilation. -/
theorem alike_ofSource : (ofSource resolve purpose roots source).Alike
    (ofSource other purpose roots source) := by
  refine alike_of_unstyled rfl (Document.unstyled_parse resolve other source)
    (unstyled_expansion resolve other purpose roots source) ?_
  intro diagnostic member notError
  cases List.mem_append.mp member with
  | inl inFirst => exact exists_unsupportedStyle resolve purpose roots source inFirst notError
  | inr inSecond => exact exists_unsupportedStyle other purpose roots source inSecond notError

end Compilation

end Wireframe
