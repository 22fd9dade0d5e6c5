import Wireframe.Proofs.Document.InlineStyle
import Wireframe.Proofs.Document.References
import Wireframe.Proofs.Grammar.NormalForm

/-! The names of templates. They are distinct, since an edit adds only a name that is new,
and they are plain, since only labels and layout text bring names in. -/

namespace Wireframe

open Text

namespace Registry

variable {registry : Registry}

/-- The name that an edit is about. -/
def Edit.name : Edit → String
  | .sight name _ => name
  | .style name _ _ => name
  | .content name _ _ => name

theorem names_apply (edit : Edit) : (registry.apply edit).names =
    if edit.name ∈ registry.names then registry.names else registry.names ++ [edit.name] := by
  cases edit with
  | sight name line => exact names_ensure registry name line
  | style name line declaration =>
      have kept : ((registry.ensure name line).modify name (.applyStyle declaration)).names =
          (registry.ensure name line).names := names_modify _ _ fun _ => rfl
      exact kept.trans (names_ensure registry name line)
  | content name line content =>
      have kept : ((registry.ensure name line).modify name (.setContent content)).names =
          (registry.ensure name line).names := names_modify _ _ fun _ => rfl
      exact kept.trans (names_ensure registry name line)

theorem nodup_names_apply (distinct : registry.names.Nodup) (edit : Edit) :
    (registry.apply edit).names.Nodup := by
  rw [names_apply]
  split
  · exact distinct
  next new => exact List.nodup_append.mpr ⟨distinct, List.nodup_singleton _, by grind⟩

theorem nodup_names_applyAll (distinct : registry.names.Nodup) (edits : List Edit) :
    (registry.applyAll edits).names.Nodup := by
  induction edits generalizing registry with
  | nil => exact distinct
  | cons edit rest ih => exact ih (nodup_names_apply distinct edit)

end Registry

namespace Line

variable {source : List Char}

theorem isPlain_of_mem_styled {entity : String} {tokens : List String}
    (member : (entity, tokens) ∈ (ofSource source).styled) : Name.IsPlain entity := by
  have reads := reads_ofSource source
  generalize ofSource source = line at reads member
  cases reads with
  | blank _ => cases member
  | style _ labelled =>
      cases List.mem_singleton.mp member
      exact (Labelled.ofText?_eq_some_iff.mp labelled).2.1
  | layout _ _ => exact (Anchor.isWritable_of_mem_styles member).plain

theorem normal_of_expression {expression : Expr}
    (written : (ofSource source).expression? = some expression) : expression.Normal := by
  have reads := reads_ofSource source
  generalize ofSource source = line at reads written
  cases reads with
  | blank _ | style _ _ => cases written
  | layout _ _ =>
      cases parsed : Expr.parse (Anchor.remainder (trim source)) with
      | error cause =>
          rw [parsed] at written
          cases written
      | ok other =>
          rw [parsed] at written
          obtain rfl := Option.some.inj written
          exact Expr.normal_of_parse parsed

theorem isPlain_of_mem_sightings {name : String} (member : name ∈ (ofSource source).sightings) :
    Name.IsPlain name := by
  rw [sightings, List.mem_append] at member
  cases member with
  | inl inStyled =>
      obtain ⟨⟨entity, tokens⟩, listed, rfl⟩ := List.mem_map.mp inStyled
      exact isPlain_of_mem_styled listed
  | inr inExpression =>
      cases reads : (ofSource source).expression? with
      | none =>
          rw [reads] at inExpression
          cases inExpression
      | some expression =>
          rw [reads] at inExpression
          exact (normal_of_expression reads).plain name inExpression

end Line

/-- The names that a statement mentions. -/
def Statement.names : Statement → List String
  | .layout _ _ expression => expression.references
  | .style _ _ entity _ => [entity]

theorem Line.Outcome.names_subset {number : Nat} {raw : String} {line : Line}
    {statements : List Statement} {errors : List Diagnostic}
    (outcome : Line.Outcome number raw line statements errors) {statement : Statement}
    (member : statement ∈ statements) : statement.names ⊆ line.sightings := by
  cases outcome with
  | blank | rejected => cases member
  | style | layout =>
      obtain rfl := List.mem_singleton.mp member
      simp [Statement.names, Line.sightings, Line.styled, Line.expression?]

namespace Document

variable (resolve : Resolver) (source : String)

theorem nodup_names : (parse resolve source).templates.names.Nodup := by
  have distinct : Registry.empty.names.Nodup := List.nodup_nil
  rw [templates_parse]
  exact Registry.nodup_names_applyAll distinct _

theorem isPlain_of_mem_names {name : String}
    (member : name ∈ (parse resolve source).templates.names) : Name.IsPlain name := by
  rw [(summarizes_lines resolve source).mem_names_iff, List.mem_map] at member
  obtain ⟨⟨other, line⟩, sighted, rfl⟩ := member
  obtain ⟨⟨text, number⟩, -, inLine⟩ := List.mem_flatMap.mp sighted
  obtain ⟨third, inSightings, same⟩ := List.mem_map.mp inLine
  obtain ⟨rfl, rfl⟩ := Prod.mk.inj same
  exact Line.isPlain_of_mem_sightings inSightings

/-- Whatever a statement mentions was read off its line. -/
theorem isPlain_of_mem_statement {statement : Statement} {name : String}
    (member : statement ∈ (parse resolve source).statements) (mentioned : name ∈ statement.names) :
    Name.IsPlain name := by
  rw [statements_parse] at member
  obtain ⟨⟨text, number⟩, -, inLine⟩ := List.mem_flatMap.mp member
  have outcome := Contribution.outcome_ofLine resolve number text
  exact Line.isPlain_of_mem_sightings (outcome.names_subset inLine mentioned)

theorem isPlain_of_mem_content {template : Template} {content : Expr} {name : String}
    (member : template ∈ (parse resolve source).templates.templates)
    (stored : template.content = some content) (mentioned : name ∈ content.references) :
    Name.IsPlain name :=
  isPlain_of_mem_names resolve source
    (closed_templates_parse resolve source template member content stored mentioned)

end Document

end Wireframe
