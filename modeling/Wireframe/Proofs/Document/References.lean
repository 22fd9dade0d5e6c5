import Wireframe.Proofs.Document.Templates
import Wireframe.Proofs.Expansion.Mirror

/-! Every name that a source refers to has a template, so expansion can only miss the
templates of roots that it is given. -/

namespace Wireframe

namespace Expr

mutual
theorem references_subset_of_mem_contents {name : String} {content : Expr} :
    (expression : Expr) → (name, content) ∈ expression.contents →
      content.references ⊆ expression.references
  | .entity _, member => by cases member
  | .group _ children, member => referencesAll_subset_of_mem_contentsAll children member
  | .container owner inner, member => by
      intro other inContent
      cases List.mem_cons.mp member with
      | inl same =>
          obtain ⟨rfl, rfl⟩ := Prod.mk.inj same
          exact List.mem_cons_of_mem name inContent
      | inr deeper =>
          exact List.mem_cons_of_mem owner
            (references_subset_of_mem_contents inner deeper inContent)

theorem referencesAll_subset_of_mem_contentsAll {name : String} {content : Expr} :
    (items : List Expr) → (name, content) ∈ Expr.contentsAll items →
      content.references ⊆ Expr.referencesAll items
  | [], member => by cases member
  | item :: rest, member => by
      intro other inContent
      apply List.mem_append.mpr
      cases List.mem_append.mp member with
      | inl first => exact .inl (references_subset_of_mem_contents item first inContent)
      | inr later => exact .inr (referencesAll_subset_of_mem_contentsAll rest later inContent)
end

theorem references_subset_of_getElem? {children : List Expr} {index : Nat} {child : Expr}
    (found : children[index]? = some child) (direction : Direction) :
    child.references ⊆ (Expr.group direction children).references := by
  intro name member
  rw [references, referencesAll_eq_flatMap, List.mem_flatMap]
  exact ⟨child, List.mem_of_getElem? found, member⟩

theorem mem_references_of_outline {place : Expr} {name : String}
    (named : place.outline = .name name) : name ∈ place.references := by
  cases place with
  | entity other =>
      obtain rfl := Outline.name.inj named
      exact List.mem_singleton_self other
  | container other content =>
      obtain rfl := Outline.name.inj named
      exact List.mem_cons_self
  | group direction children => cases named

end Expr

namespace Registry

variable {registry : Registry}

/-- Every name in a stored content has a template. -/
def Closed (registry : Registry) : Prop :=
  ∀ template ∈ registry.templates, ∀ content, template.content = some content →
    content.references ⊆ registry.names

namespace Closed

theorem references_content? (closed : registry.Closed) {place content : Expr}
    (known : place.references ⊆ registry.names)
    (filled : registry.content? place = some content) :
    content.references ⊆ registry.names := by
  cases place with
  | entity name =>
      obtain ⟨template, found, stored⟩ := Option.bind_eq_some_iff.mp filled
      exact closed template (List.mem_of_find?_eq_some found) content stored
  | container name inner =>
      obtain rfl := Option.some.inj filled
      exact fun other member => known (List.mem_cons_of_mem name member)
  | group direction children => cases filled

/-- Expansion only jumps to places whose names have templates. -/
theorem references_origin? (closed : registry.Closed) {address : List Layout.Step}
    {place origin : Expr} (known : place.references ⊆ registry.names)
    (leads : registry.origin? place address = some origin) :
    origin.references ⊆ registry.names := by
  induction address generalizing place with
  | nil =>
      cases place.named_or_group with
      | inl named =>
          obtain ⟨name, named⟩ := named
          rw [origin?_nil named] at leads
          exact Option.some.inj leads ▸ known
      | inr grouped =>
          obtain ⟨direction, children, rfl⟩ := grouped
          cases leads
  | cons step rest ih =>
      cases place.named_or_group with
      | inl named =>
          obtain ⟨name, named⟩ := named
          cases step with
          | inside =>
              rw [origin?_inside named, Option.bind_eq_some_iff] at leads
              obtain ⟨content, filled, leads⟩ := leads
              exact ih (closed.references_content? known filled) leads
          | child index =>
              cases place with
              | entity other => cases leads
              | container other content => cases leads
              | group direction children => cases named
      | inr grouped =>
          obtain ⟨direction, children, rfl⟩ := grouped
          cases step with
          | inside => cases leads
          | child index =>
              rw [origin?, Option.bind_eq_some_iff] at leads
              obtain ⟨child, found, leads⟩ := leads
              exact ih (fun name member =>
                known (Expr.references_subset_of_getElem? found direction member)) leads

theorem unknownTemplates_expand (closed : registry.Closed) (path : List String) (nested : Bool)
    {expression : Expr} (known : expression.references ⊆ registry.names) :
    registry.unknownTemplates (registry.expand path nested expression) = [] := by
  rw [unknownTemplates, List.map_eq_nil_iff, List.filter_eq_nil_iff]
  intro node member
  obtain ⟨address, above, content, located⟩ := Layout.exists_locate?_of_mem_nodes _ member
  obtain ⟨origin, leads, mirrors⟩ := mirrors_of_locate? located
  have named := closed.references_origin? known leads (Expr.mem_references_of_outline mirrors.name)
  simp [contains_iff_mem_names.mpr named]

theorem unknownTemplates_instantiate (closed : registry.Closed) (root : String) :
    registry.unknownTemplates (registry.instantiate root none true) =
      if root ∈ registry.names then [] else [.unknownTemplate root] := by
  by_cases known : root ∈ registry.names
  · rw [if_pos known]
    have referenced : (Expr.entity root).references ⊆ registry.names := by
      simpa [Expr.references] using known
    exact closed.unknownTemplates_expand [] true referenced
  · have missing : registry.get? root = none := by
      rw [← Option.not_isSome_iff_eq_none, ← contains_iff_get?, contains_iff_mem_names]
      exact known
    rw [if_neg known, instantiate, Option.elim_none, expand_entity_unknown missing]
    simp [unknownTemplates, Layout.nodes, not_contains_of_get? missing]

theorem unknownTemplates_roots (closed : registry.Closed) (roots : List String) :
    (roots.flatMap fun root => registry.unknownTemplates (registry.instantiate root none true)) =
      (roots.filter (· ∉ registry.names)).map .unknownTemplate := by
  induction roots with
  | nil => rfl
  | cons root rest ih =>
      rw [List.flatMap_cons, ih, closed.unknownTemplates_instantiate]
      by_cases known : root ∈ registry.names
      · simp [known]
      · simp [known]

end Closed

theorem mem_names_of_mem_inferRoots {name : String} (member : name ∈ registry.inferRoots) :
    name ∈ registry.names := by
  unfold inferRoots at member
  simp only at member
  split at member
  · exact member
  · exact List.mem_of_mem_filter member

end Registry

theorem Diagnostic.anyError_unknownTemplate (names : List String) :
    anyError (names.map unknownTemplate) = true ↔ names ≠ [] := by
  cases names with
  | nil => simp [anyError]
  | cons name rest => simp [anyError, unknownTemplate, isError]

namespace Document

variable {document : Document}

/-- Only a root that was asked for can be without a template. -/
theorem diagnostics_expand (closed : document.templates.Closed)
    (known : ∀ expression ∈ document.expressions,
      expression.references ⊆ document.templates.names) (roots : List String) :
    (document.expand roots).diagnostics =
      if document.expressions ≠ [] ∨ roots = [] then []
      else (roots.filter (· ∉ document.templates.names)).map .unknownTemplate := by
  change (document.scenes roots).flatMap _ = _
  unfold scenes
  by_cases structured : document.expressions = []
  · have unstructured : ¬ (document.expressions ≠ []) := not_not_intro structured
    rw [if_pos (by simpa using structured), List.flatMap_map, closed.unknownTemplates_roots]
    by_cases inferred : roots = []
    · rw [if_pos (by simpa using inferred), if_pos (.inr inferred), List.map_eq_nil_iff,
        List.filter_eq_nil_iff]
      intro name member
      simp [Registry.mem_names_of_mem_inferRoots member]
    · rw [if_neg (by simpa using inferred), if_neg (not_or_intro unstructured inferred)]
  · rw [if_neg (by simpa using structured), if_pos (.inl structured), List.flatMap_map,
      List.flatMap_eq_nil_iff]
    intro expression member
    exact closed.unknownTemplates_expand [] false (known expression member)

theorem anyError_expand (closed : document.templates.Closed)
    (known : ∀ expression ∈ document.expressions,
      expression.references ⊆ document.templates.names) (roots : List String) :
    Diagnostic.anyError (document.expand roots).diagnostics = true ↔
      document.expressions = [] ∧ ∃ root ∈ roots, root ∉ document.templates.names := by
  rw [diagnostics_expand closed known roots]
  by_cases structured : document.expressions = []
  · by_cases inferred : roots = []
    · simp [inferred, Diagnostic.anyError]
    · rw [if_neg (not_or_intro (not_not_intro structured) inferred),
        Diagnostic.anyError_unknownTemplate]
      simp [structured, List.filter_eq_nil_iff]
  · simp [structured, Diagnostic.anyError]

variable (resolve : Resolver) (source : String)

/-- The templates say what the lines say of names, those that are rejected of styles only. -/
theorem summarizes_lines : (parse resolve source).templates.Summarizes
    ⟨(numbered source).flatMap fun pair => (Line.ofSource pair.1).sightings.map (·, pair.2),
      (numbered source).flatMap fun pair => (Line.ofSource pair.1).declarations resolve,
      (numbered source).flatMap fun pair => (Line.ofSource pair.1).contents⟩ := by
  rw [templates_parse]
  exact Registry.summarizes_empty.lines resolve (numbered source)

theorem references_subset_of_line {text : List Char} {number : Nat} {expression : Expr}
    (member : (text, number) ∈ numbered source)
    (reads : (Line.ofSource text).expression? = some expression) :
    expression.references ⊆ (parse resolve source).templates.names := by
  intro name inExpression
  rw [(summarizes_lines resolve source).mem_names_iff, List.mem_map]
  refine ⟨(name, number), List.mem_flatMap.mpr ⟨(text, number), member, ?_⟩, rfl⟩
  rw [Line.sightings, reads]
  exact List.mem_map_of_mem (List.mem_append_right _ inExpression)

theorem exists_line_of_expression {expression : Expr}
    (member : expression ∈ (parse resolve source).expressions) :
    ∃ text number, (text, number) ∈ numbered source ∧
      (Line.ofSource text).expression? = some expression := by
  rw [expressions, statements_parse, List.filterMap_flatMap, List.mem_flatMap] at member
  obtain ⟨⟨text, number⟩, inSource, inLine⟩ := member
  rw [(Contribution.outcome_ofLine resolve number text).expressions] at inLine
  exact ⟨text, number, inSource, Option.mem_toList.mp inLine⟩

theorem closed_templates_parse : (parse resolve source).templates.Closed := by
  intro template member content stored
  have summarizes := summarizes_lines resolve source
  rw [summarizes.content template member, Record.content?, Option.map_eq_some_iff] at stored
  obtain ⟨⟨name, given⟩, last, rfl⟩ := stored
  rw [List.findRev?_eq_find?_reverse] at last
  have inContents := List.mem_reverse.mp (List.mem_of_find?_eq_some last)
  obtain ⟨⟨text, number⟩, inSource, inLine⟩ := List.mem_flatMap.mp inContents
  rw [Line.contents] at inLine
  cases reads : (Line.ofSource text).expression? with
  | none =>
      rw [reads] at inLine
      cases inLine
  | some expression =>
      rw [reads] at inLine
      intro other inContent
      exact references_subset_of_line resolve source inSource reads
        (Expr.references_subset_of_mem_contents expression inLine inContent)

/-- A line that reads neither as a style line nor as an expression. -/
def IsRejected (text : List Char) : Prop :=
  ∃ anchored error, Line.ofSource text = .layout anchored (.error error)

theorem errors_ofLine_ne_nil_iff (number : Nat) (text : List Char) :
    (Contribution.ofLine resolve number text).errors ≠ [] ↔ IsRejected text := by
  have outcome := Contribution.outcome_ofLine resolve number text
  unfold IsRejected
  generalize Line.ofSource text = line at outcome
  generalize (Contribution.ofLine resolve number text).statements = statements at outcome
  generalize (Contribution.ofLine resolve number text).errors = errors at outcome
  cases outcome with
  | blank | style | layout => simp
  | rejected column => simp

theorem anyError_diagnostics_parse :
    Diagnostic.anyError (parse resolve source).diagnostics = true ↔
      ∃ text number, (text, number) ∈ numbered source ∧ IsRejected text := by
  have some_error : Diagnostic.anyError (parse resolve source).diagnostics = true ↔
      (parse resolve source).errors ≠ [] := by
    simp [Diagnostic.anyError, errors, List.filter_eq_nil_iff]
  rw [some_error, errors_parse, ne_eq, List.flatMap_eq_nil_iff]
  simp only [not_forall, exists_prop, ← ne_eq, errors_ofLine_ne_nil_iff, Prod.exists]

end Document

/-- Every name in a recorded expression or a stored content has a template. So the roots
that are given in place of layout lines are all that can lack one, and there is an error
only for those and for rejected lines. -/
theorem Compilation.references_closed (resolve : Resolver) (purpose : Purpose)
    (roots : List String) (source : String) :
    let document := Document.parse resolve source
    let compilation := ofSource resolve purpose roots source
    (∀ expression ∈ document.expressions,
      expression.references ⊆ document.templates.names) ∧
    (∀ template ∈ document.templates.templates, ∀ content, template.content = some content →
      content.references ⊆ document.templates.names) ∧
    compilation.expansion.diagnostics =
      (if document.expressions ≠ [] ∨ roots = [] then []
      else (roots.filter (· ∉ document.templates.names)).map .unknownTemplate) ∧
    compilation.diagnostics = document.diagnostics ++ compilation.expansion.diagnostics ∧
    (compilation.hasErrors = true ↔
      (∃ text number, (text, number) ∈ Document.numbered source ∧ Document.IsRejected text) ∨
      document.expressions = [] ∧ ∃ root ∈ roots, root ∉ document.templates.names) := by
  intro document compilation
  have closed := Document.closed_templates_parse resolve source
  have known : ∀ expression ∈ document.expressions,
      expression.references ⊆ document.templates.names := by
    intro expression member
    obtain ⟨text, number, inSource, reads⟩ :=
      Document.exists_line_of_expression resolve source member
    exact Document.references_subset_of_line resolve source inSource reads
  refine ⟨known, closed, Document.diagnostics_expand closed known roots, rfl, ?_⟩
  rw [hasErrors, diagnostics, Diagnostic.anyError, List.any_append, Bool.or_eq_true]
  exact or_congr (Document.anyError_diagnostics_parse resolve source)
    (Document.anyError_expand closed known roots)

end Wireframe
