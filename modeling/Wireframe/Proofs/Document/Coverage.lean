import Wireframe.Proofs.Document.Line

/-! No line of a source is lost: each one that is not blank is a statement or an error of
the document, on its own number, and nothing else is. -/

namespace Wireframe

open Text

namespace Line

theorem ofSource_eq_blank_iff {source : List Char} :
    ofSource source = .blank ↔ trim source = [] := by
  have reads := reads_ofSource source
  generalize ofSource source = line at reads
  cases reads with
  | blank blank => simp [blank]
  | style nonblank _ => simp [nonblank]
  | layout nonblank _ => simp [nonblank]

namespace Outcome

variable {number : Nat} {raw : String} {line : Line} {statements : List Statement}
  {errors : List Diagnostic}

theorem line_statement (outcome : Outcome number raw line statements errors)
    {statement : Statement} (member : statement ∈ statements) : statement.line = number := by
  cases outcome with
  | blank | rejected => cases member
  | style | layout =>
      obtain rfl := List.mem_singleton.mp member
      rfl

theorem line_error (outcome : Outcome number raw line statements errors)
    {error : Diagnostic} (member : error ∈ errors) : error.line = some number := by
  cases outcome with
  | blank | style | layout => cases member
  | rejected column =>
      obtain rfl := List.mem_singleton.mp member
      rfl

theorem isError (outcome : Outcome number raw line statements errors)
    {error : Diagnostic} (member : error ∈ errors) : error.isError = true := by
  cases outcome with
  | blank | style | layout => cases member
  | rejected column =>
      obtain rfl := List.mem_singleton.mp member
      rfl

theorem pairwise_statements (outcome : Outcome number raw line statements errors)
    (related : Statement → Statement → Prop) : statements.Pairwise related := by
  cases outcome with
  | blank | rejected => exact .nil
  | style | layout => exact List.pairwise_singleton ..

theorem pairwise_errors (outcome : Outcome number raw line statements errors)
    (related : Diagnostic → Diagnostic → Prop) : errors.Pairwise related := by
  cases outcome with
  | blank | style | layout => exact .nil
  | rejected column => exact List.pairwise_singleton ..

theorem length_add_length {source : List Char}
    (outcome : Outcome number raw (ofSource source) statements errors) :
    statements.length + errors.length = if trim source ≠ [] then 1 else 0 := by
  have blank : ofSource source = .blank ↔ trim source = [] := ofSource_eq_blank_iff
  generalize ofSource source = line at outcome blank
  cases outcome with
  | blank => simp [blank.mp rfl]
  | style | layout | rejected => simp [← blank]

end Outcome

theorem level_of_mem_warnings {resolve : Resolver} {number : Nat} {line : Line}
    {warning : Diagnostic} (member : warning ∈ line.warnings resolve number) :
    warning.isError = false := by
  obtain ⟨token, -, rfl⟩ := List.mem_map.mp member
  rfl

theorem line_of_mem_warnings {resolve : Resolver} {number : Nat} {line : Line}
    {warning : Diagnostic} (member : warning ∈ line.warnings resolve number) :
    warning.line = some number := by
  obtain ⟨token, -, rfl⟩ := List.mem_map.mp member
  rfl

theorem styled_ne_nil_of_mem_warnings {resolve : Resolver} {number : Nat} {line : Line}
    {warning : Diagnostic} (member : warning ∈ line.warnings resolve number) :
    line.styled ≠ [] := by
  intro unstyled
  rw [warnings, unstyled] at member
  cases member

theorem labelled_or_anchored {source : List Char} (styled : (ofSource source).styled ≠ []) :
    (Labelled.ofText? (trim source)).isSome ∨ (Anchor.decompose (trim source)).1 ≠ [] := by
  have reads := reads_ofSource source
  generalize ofSource source = line at reads styled
  cases reads with
  | blank _ => exact absurd rfl styled
  | style _ labelled => exact .inl (by rw [labelled]; rfl)
  | layout _ _ =>
      right
      intro unanchored
      simp [Line.styled, Anchor.styles, unanchored] at styled

end Line

namespace Contribution

def errors (contribution : Contribution) : List Diagnostic :=
  contribution.diagnostics.filter (·.isError)

def warnings (contribution : Contribution) : List Diagnostic :=
  contribution.diagnostics.filter (!·.isError)

theorem errors_append (left right : Contribution) :
    (left ++ right).errors = left.errors ++ right.errors :=
  List.filter_append ..

variable (resolve : Resolver) (number : Nat) (source : List Char)

theorem errors_ofStyles (entity : String) (tokens : List String) :
    (ofStyles resolve number entity tokens).errors = [] := by
  rw [errors, List.filter_eq_nil_iff]
  intro warning member
  obtain ⟨token, -, rfl⟩ := List.mem_map.mp member
  exact nofun

theorem errors_join_ofStyles (styled : List (String × List String)) :
    (join (styled.map fun (entity, tokens) => ofStyles resolve number entity tokens)).errors =
      [] := by
  rw [errors, join, List.filter_flatMap, List.flatMap_eq_nil_iff]
  intro part member
  obtain ⟨⟨entity, tokens⟩, -, rfl⟩ := List.mem_map.mp member
  exact errors_ofStyles resolve number entity tokens

theorem warnings_ofLine :
    (ofLine resolve number source).warnings = (Line.ofSource source).warnings resolve number := by
  obtain ⟨statements, errors, outcome, equal⟩ := exists_outcome resolve number source
  rw [warnings, equal, List.filter_append]
  rw [List.filter_eq_self.mpr fun warning member => by simp [Line.level_of_mem_warnings member],
    List.filter_eq_nil_iff.mpr fun error member => by simp [outcome.isError member],
    List.append_nil]

theorem outcome_ofLine :
    Line.Outcome number (String.ofList (trim source)) (Line.ofSource source)
      (ofLine resolve number source).statements (ofLine resolve number source).errors := by
  obtain ⟨statements, errors, outcome, equal⟩ := exists_outcome resolve number source
  rw [Contribution.errors, equal, List.filter_append]
  rw [List.filter_eq_nil_iff.mpr fun warning member => by simp [Line.level_of_mem_warnings member],
    List.filter_eq_self.mpr fun error member => by simp [outcome.isError member],
    List.nil_append]
  exact outcome

theorem ofLine_blank (blank : trim source = []) : ofLine resolve number source = .empty :=
  if_pos blank

theorem line_of_mem_diagnostics (diagnostic : Diagnostic)
    (member : diagnostic ∈ (ofLine resolve number source).diagnostics) :
    diagnostic.line = some number := by
  obtain ⟨statements, errors, outcome, equal⟩ := exists_outcome resolve number source
  rw [equal] at member
  cases List.mem_append.mp member with
  | inl warning => exact Line.line_of_mem_warnings warning
  | inr error => exact outcome.line_error error

end Contribution

/-! What numbered parts give, when each gives only what bears its number. -/

section Numbered

variable {numbered : List (α × Nat)}

private theorem filter_flatMap_numbered (parts : α × Nat → List β) (on : Nat → β → Bool)
    (increasing : numbered.Pairwise (·.2 < ·.2))
    (placed : ∀ pair ∈ numbered, ∀ part ∈ parts pair, ∀ number,
      on number part = (pair.2 == number))
    {pair : α × Nat} (member : pair ∈ numbered) :
    (numbered.flatMap parts).filter (on pair.2) = parts pair := by
  induction numbered with
  | nil => cases member
  | cons first rest ih =>
      obtain ⟨later, increasing⟩ := List.pairwise_cons.mp increasing
      have placedRest := fun pair inRest => placed pair (List.mem_cons_of_mem first inRest)
      rw [List.flatMap_cons, List.filter_append]
      cases List.mem_cons.mp member with
      | inl same =>
          subst same
          have here : (parts pair).filter (on pair.2) = parts pair := by
            apply List.filter_eq_self.mpr
            intro part inPart
            simp [placed pair member part inPart]
          have elsewhere : (rest.flatMap parts).filter (on pair.2) = [] := by
            apply List.filter_eq_nil_iff.mpr
            intro part inRest
            obtain ⟨other, inRest, inPart⟩ := List.mem_flatMap.mp inRest
            have less := later other inRest
            simp only [placedRest other inRest part inPart, beq_iff_eq]
            omega
          rw [here, elsewhere, List.append_nil]
      | inr inRest =>
          have before : (parts first).filter (on pair.2) = [] := by
            apply List.filter_eq_nil_iff.mpr
            intro part inPart
            have less := later pair inRest
            simp only [placed first List.mem_cons_self part inPart, beq_iff_eq]
            omega
          rw [before, List.nil_append]
          exact ih increasing placedRest inRest

private theorem length_flatMap_add {parts : α × Nat → List β} {others : α × Nat → List γ}
    {counts : α → Bool}
    (single : ∀ pair ∈ numbered,
      (parts pair).length + (others pair).length = if counts pair.1 then 1 else 0) :
    (numbered.flatMap parts).length + (numbered.flatMap others).length =
      (numbered.map Prod.fst).countP counts := by
  induction numbered with
  | nil => rfl
  | cons first rest ih =>
      have here := single first List.mem_cons_self
      have later := ih fun pair inRest => single pair (List.mem_cons_of_mem first inRest)
      simp only [List.flatMap_cons, List.length_append, List.map_cons, List.countP_cons]
      omega

end Numbered

namespace Document

/-- The lines of a source with their numbers. -/
def numbered (source : String) : List (List Char × Nat) :=
  (lines source.toList).zipIdx 1

def errors (document : Document) : List Diagnostic :=
  document.diagnostics.filter (·.isError)

def warnings (document : Document) : List Diagnostic :=
  document.diagnostics.filter (!·.isError)

def statementsAt (document : Document) (number : Nat) : List Statement :=
  document.statements.filter (·.line == number)

def errorsAt (document : Document) (number : Nat) : List Diagnostic :=
  document.errors.filter (·.line == some number)

/-- A document in which every line of its source is accounted for. -/
structure Covers (resolve : Resolver) (source : String) (document : Document) : Prop where
  outcome : ∀ text number, (text, number) ∈ numbered source →
    Line.Outcome number (String.ofList (trim text)) (Line.ofSource text)
      (document.statementsAt number) (document.errorsAt number)
  count : document.statements.length + document.errors.length =
    (lines source.toList).countP (trim · ≠ [])
  statements_increase : document.statements.Pairwise (·.line < ·.line)
  errors_increase : document.errors.Pairwise (·.line < ·.line)
  diagnostics_ordered : document.diagnostics.Pairwise (·.line ≤ ·.line)
  diagnostics_placed : ∀ diagnostic ∈ document.diagnostics, ∃ text number,
    (text, number) ∈ numbered source ∧ trim text ≠ [] ∧ diagnostic.line = some number
  warnings : document.warnings =
    (numbered source).flatMap fun pair => (Line.ofSource pair.1).warnings resolve pair.2
  warnings_styled : ∀ warning ∈ document.warnings, ∃ text number,
    (text, number) ∈ numbered source ∧ warning.line = some number ∧
      ((Labelled.ofText? (trim text)).isSome ∨ (Anchor.decompose (trim text)).1 ≠ [])
  remainder : ∀ text number, (text, number) ∈ numbered source → trim text ≠ [] →
    Anchor.remainder (trim text) ≠ []

variable (resolve : Resolver) (source : String)

theorem statements_parse : (parse resolve source).statements =
    (numbered source).flatMap fun pair =>
      (Contribution.ofLine resolve pair.2 pair.1).statements :=
  List.flatMap_map ..

theorem diagnostics_parse : (parse resolve source).diagnostics =
    (numbered source).flatMap fun pair =>
      (Contribution.ofLine resolve pair.2 pair.1).diagnostics :=
  List.flatMap_map ..

theorem errors_parse : (parse resolve source).errors =
    (numbered source).flatMap fun pair =>
      (Contribution.ofLine resolve pair.2 pair.1).errors := by
  rw [errors, diagnostics_parse, List.filter_flatMap]
  rfl

theorem warnings_parse : (parse resolve source).warnings =
    (numbered source).flatMap fun pair =>
      (Line.ofSource pair.1).warnings resolve pair.2 := by
  rw [warnings, diagnostics_parse, List.filter_flatMap]
  congr 1
  funext pair
  exact Contribution.warnings_ofLine resolve pair.2 pair.1

theorem increasing_numbered : (numbered source).Pairwise (·.2 < ·.2) := by
  unfold numbered
  rw [← List.pairwise_map, List.zipIdx_map_snd]
  exact List.pairwise_lt_range'

theorem statementsAt_parse {text : List Char} {number : Nat}
    (member : (text, number) ∈ numbered source) :
    (parse resolve source).statementsAt number =
      (Contribution.ofLine resolve number text).statements := by
  rw [statementsAt, statements_parse]
  apply filter_flatMap_numbered
    (fun pair => (Contribution.ofLine resolve pair.2 pair.1).statements)
    (fun number statement => statement.line == number)
    (increasing_numbered source) _ member
  intro pair _ statement inPart other
  rw [(Contribution.outcome_ofLine resolve pair.2 pair.1).line_statement inPart]

theorem errorsAt_parse {text : List Char} {number : Nat}
    (member : (text, number) ∈ numbered source) :
    (parse resolve source).errorsAt number =
      (Contribution.ofLine resolve number text).errors := by
  rw [errorsAt, errors_parse]
  apply filter_flatMap_numbered
    (fun pair => (Contribution.ofLine resolve pair.2 pair.1).errors)
    (fun number error => error.line == some number)
    (increasing_numbered source) _ member
  intro pair _ error inPart other
  rw [(Contribution.outcome_ofLine resolve pair.2 pair.1).line_error inPart]
  rfl

theorem statements_increase : (parse resolve source).statements.Pairwise (·.line < ·.line) := by
  have outcome := fun pair : List Char × Nat => Contribution.outcome_ofLine resolve pair.2 pair.1
  rw [statements_parse, List.pairwise_flatMap]
  refine ⟨fun pair _ => (outcome pair).pairwise_statements _, ?_⟩
  apply (increasing_numbered source).imp
  intro earlier later less first inFirst second inSecond
  rw [(outcome earlier).line_statement inFirst, (outcome later).line_statement inSecond]
  exact less

theorem errors_increase : (parse resolve source).errors.Pairwise (·.line < ·.line) := by
  have outcome := fun pair : List Char × Nat => Contribution.outcome_ofLine resolve pair.2 pair.1
  rw [errors_parse, List.pairwise_flatMap]
  refine ⟨fun pair _ => (outcome pair).pairwise_errors _, ?_⟩
  apply (increasing_numbered source).imp
  intro earlier later less first inFirst second inSecond
  rw [(outcome earlier).line_error inFirst, (outcome later).line_error inSecond]
  exact Option.some_lt_some.mpr less

theorem diagnostics_ordered :
    (parse resolve source).diagnostics.Pairwise (·.line ≤ ·.line) := by
  have line := fun pair : List Char × Nat =>
    Contribution.line_of_mem_diagnostics resolve pair.2 pair.1
  rw [diagnostics_parse, List.pairwise_flatMap]
  constructor
  · intro pair _
    apply List.pairwise_of_forall_mem_list
    intro first inFirst second inSecond
    rw [line pair first inFirst, line pair second inSecond]
    exact Option.some_le_some.mpr (Nat.le_refl pair.2)
  · apply (increasing_numbered source).imp
    intro earlier later less first inFirst second inSecond
    rw [line earlier first inFirst, line later second inSecond]
    exact Option.some_le_some.mpr (Nat.le_of_lt less)

theorem length_statements_add_errors :
    (parse resolve source).statements.length + (parse resolve source).errors.length =
      (lines source.toList).countP (trim · ≠ []) := by
  have texts : (numbered source).map Prod.fst = lines source.toList := List.zipIdx_map_fst ..
  rw [statements_parse, errors_parse, ← texts]
  apply length_flatMap_add
  intro pair _
  simpa using (Contribution.outcome_ofLine resolve pair.2 pair.1).length_add_length

theorem exists_line_of_mem_diagnostics {diagnostic : Diagnostic}
    (member : diagnostic ∈ (parse resolve source).diagnostics) :
    ∃ text number, (text, number) ∈ numbered source ∧
      diagnostic ∈ (Contribution.ofLine resolve number text).diagnostics := by
  rw [diagnostics_parse] at member
  obtain ⟨⟨text, number⟩, inSource, inLine⟩ := List.mem_flatMap.mp member
  exact ⟨text, number, inSource, inLine⟩

/-- Every line that is not blank is one statement or one error, and every style token
without a meaning is one warning. -/
theorem covers_parse : Covers resolve source (parse resolve source) where
  outcome := by
    intro text number member
    rw [statementsAt_parse resolve source member, errorsAt_parse resolve source member]
    exact Contribution.outcome_ofLine resolve number text
  count := length_statements_add_errors resolve source
  statements_increase := statements_increase resolve source
  errors_increase := errors_increase resolve source
  diagnostics_ordered := diagnostics_ordered resolve source
  diagnostics_placed := by
    intro diagnostic member
    obtain ⟨text, number, inSource, inLine⟩ :=
      exists_line_of_mem_diagnostics resolve source member
    refine ⟨text, number, inSource, ?_, Contribution.line_of_mem_diagnostics _ _ _ _ inLine⟩
    intro blank
    rw [Contribution.ofLine_blank resolve number text blank] at inLine
    cases inLine
  warnings := warnings_parse resolve source
  warnings_styled := by
    intro warning member
    rw [warnings_parse] at member
    obtain ⟨⟨text, number⟩, inSource, inLine⟩ := List.mem_flatMap.mp member
    exact ⟨text, number, inSource, Line.line_of_mem_warnings inLine,
      Line.labelled_or_anchored (Line.styled_ne_nil_of_mem_warnings inLine)⟩
  remainder := by
    intro text number _ nonempty
    obtain ⟨c, member, notBlank⟩ := exists_not_blank nonempty
    exact Anchor.remainder_ne_nil member notBlank

end Document

end Wireframe
