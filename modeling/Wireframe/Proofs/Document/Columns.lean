import Wireframe.Compilation
import Wireframe.Proofs.Diagnostic.Place
import Wireframe.Proofs.Document.InlineStyle
import Wireframe.Proofs.Grammar.Blame

/-! The columns of errors. A layout error of a line without anchors has the column of what
it names in the line as it stands in the source, blanks included, and every diagnostic with
a line can be shown there. -/

namespace Wireframe

open Text

/-- At `column` of a line stands what its layout error names. -/
def LayoutError.BlamesAt (line : List Char) (column : Nat) (cause : LayoutError) : Prop :=
  ∃ lead before rest trail, line = lead ++ trim line ++ trail ∧ trim line = before ++ rest ∧
    column = byteSize (lead ++ before) + 1 ∧ cause.Blames before rest

namespace Contribution

variable {resolve : Resolver} {number : Nat} {line : List Char}

/-- An error of a line is that of its layout text, with a column if no anchor was cut. -/
theorem exists_cause {error : Diagnostic} (member : error ∈ (ofLine resolve number line).errors) :
    ∃ cause, Expr.parse (Anchor.remainder (trim line)) = .error cause ∧
      error = ⟨.error, cause.message, some number,
        if Anchor.remainder (trim line) = trim line then
          some (byteSize (line.takeWhile isBlank) + cause.offset + 1) else none⟩ := by
  have reads := Line.reads_ofSource line
  have outcome := outcome_ofLine resolve number line
  generalize Line.ofSource line = form at reads outcome
  generalize (ofLine resolve number line).statements = statements at outcome
  cases reads with
  | blank _ | style _ _ =>
      generalize (ofLine resolve number line).errors = errors at outcome member
      cases outcome
      cases member
  | layout nonblank labelled =>
      rw [ofLine_layout resolve number nonblank labelled, errors_append, errors_join_ofStyles,
        List.nil_append] at member
      unfold ofLayout at member
      split at member
      · cases member
      · split at member
        · cases member
        next cause failed =>
          exact ⟨cause, failed, List.mem_singleton.mp (List.mem_filter.mp member).1⟩

theorem blamesAt_of_parse {cause : LayoutError} (failed : Expr.parse (trim line) = .error cause) :
    cause.BlamesAt line (byteSize (line.takeWhile isBlank) + cause.offset + 1) := by
  obtain ⟨trail, -, whole⟩ := exists_trim line
  obtain ⟨before, rest, split, offset, blames⟩ := Expr.exists_blames failed
  exact ⟨_, before, rest, trail, whole, split, by rw [byteSize_append, offset], blames⟩

/-- The errors of a line have a column exactly if it has no anchor, and then the right one. -/
theorem exists_blamesAt {error : Diagnostic}
    (member : error ∈ (ofLine resolve number line).errors) :
    ∃ cause, Expr.parse (Anchor.remainder (trim line)) = .error cause ∧
      error.message = cause.message ∧ error.line = some number ∧
      (error.column.isSome ↔ (Anchor.decompose (trim line)).1 = []) ∧
      ∀ column, error.column = some column → cause.BlamesAt line column := by
  obtain ⟨cause, failed, rfl⟩ := exists_cause member
  refine ⟨cause, failed, rfl, rfl, ?_⟩
  rw [← Anchor.remainder_eq_self_iff (trim_trim line)]
  by_cases uncut : Anchor.remainder (trim line) = trim line
  · simp only [uncut, if_true, Option.isSome_some, true_and, Option.some.injEq]
    rintro column rfl
    exact blamesAt_of_parse (uncut ▸ failed)
  · simp [uncut]

/-- A column is where some character of the line begins, or its end. -/
theorem exists_skipped {diagnostic : Diagnostic} {column : Nat}
    (member : diagnostic ∈ (ofLine resolve number line).diagnostics)
    (placed : diagnostic.column = some column) :
    ∃ skipped, skipped <+: line ∧ column = byteSize skipped + 1 := by
  cases isError : diagnostic.isError with
  | true =>
      obtain ⟨cause, -, -, -, -, blames⟩ :=
        exists_blamesAt (List.mem_filter.mpr ⟨member, isError⟩)
      obtain ⟨lead, before, rest, trail, whole, split, column, -⟩ := blames column placed
      refine ⟨lead ++ before, ?_, column⟩
      rw [whole, split]
      exact ⟨rest ++ trail, by simp⟩
  | false =>
      have warning : diagnostic ∈ (ofLine resolve number line).warnings :=
        List.mem_filter.mpr ⟨member, by simp [isError]⟩
      rw [warnings_ofLine] at warning
      obtain ⟨token, -, rfl⟩ := List.mem_map.mp warning
      cases placed

end Contribution

/-- What a diagnostic with a line points at: the character at its column, or all of the
line, without its end, if it has no column there. -/
inductive Diagnostic.Shows (source : List Char) (number : Nat) (diagnostic : Diagnostic) : Prop
  | char {index : Nat} {segment skipped left : List Char} {c : Char} :
      number = index + 1 → (segments source)[index]? = some segment →
      dropReturn segment = skipped ++ c :: left →
      diagnostic.column = some (byteSize skipped + 1) →
      diagnostic.Points source (ahead source index ++ skipped) [c] →
      Shows source number diagnostic
  | whole {index : Nat} {segment : List Char} :
      number = index + 1 → (segments source)[index]? = some segment →
      (∀ column, diagnostic.column = some column → byteSize (dropReturn segment) < column) →
      diagnostic.Points source (ahead source index) (dropReturn segment) →
      Shows source number diagnostic

namespace Diagnostic

/-- A column at which some character of the segment begins is shown, wherever it is. -/
theorem shows_of_segment {source segment : List Char} {index : Nat} {diagnostic : Diagnostic}
    (found : (segments source)[index]? = some segment)
    (numbered : diagnostic.line = some (index + 1))
    (placed : ∀ column, diagnostic.column = some column →
      ∃ skipped, skipped <+: segment ∧ column = byteSize skipped + 1) :
    diagnostic.Shows source (index + 1) := by
  by_cases beyond : ∀ column, diagnostic.column = some column →
      byteSize (dropReturn segment) < column
  · have outside : ∀ column, diagnostic.column = some column →
        column = 0 ∨ byteSize (dropReturn segment) < column := fun column here =>
      .inr (beyond column here)
    exact .whole rfl found beyond (points_whole found numbered outside)
  · push Not at beyond
    obtain ⟨column, here, within⟩ := beyond
    obtain ⟨skipped, isPrefix, rfl⟩ := placed column here
    -- the column is within the line, so what it skips does not reach a carriage return
    rcases List.prefix_or_prefix_of_prefix (isPrefix_dropReturn segment) isPrefix with past | inside
    · obtain ⟨more, rfl⟩ := past
      rw [byteSize_append] at within
      omega
    · obtain ⟨left, split⟩ := inside
      cases left with
      | nil =>
          rw [← split, List.append_nil] at within
          omega
      | cons c left =>
          exact .char rfl found split.symm here (points_char found numbered split.symm here)

theorem shows_of_line {resolve : Resolver} {source : String} {line : List Char} {number : Nat}
    {diagnostic : Diagnostic} (inSource : (line, number) ∈ Document.numbered source)
    (member : diagnostic ∈ (Contribution.ofLine resolve number line).diagnostics) :
    diagnostic.Shows source.toList number := by
  obtain ⟨positive, found⟩ := List.mk_mem_zipIdx_iff_le_and_getElem?_sub.mp inSource
  obtain ⟨index, rfl⟩ := Nat.exists_eq_add_of_le' positive
  obtain ⟨segment, inSegments, same⟩ := exists_segment_of_line found
  have isPrefix : line <+: segment := by
    rcases same with rfl | rfl
    · exact List.prefix_rfl
    · exact isPrefix_dropReturn segment
  apply shows_of_segment inSegments (Contribution.line_of_mem_diagnostics _ _ _ _ member)
  intro column placed
  obtain ⟨skipped, begins, equal⟩ := Contribution.exists_skipped member placed
  exact ⟨skipped, begins.trans isPrefix, equal⟩

end Diagnostic

/-- Every error of a line names what stands at its column, which it has unless an anchor was
cut, and every diagnostic with a line is shown on that line, from its column on if that is
within the line. -/
theorem Compilation.columns_point (resolve : Resolver) (purpose : Purpose)
    (roots : List String) (source : String) :
    let compilation := Compilation.ofSource resolve purpose roots source
    (∀ error ∈ compilation.document.errors, ∃ line number cause,
      (line, number) ∈ Document.numbered source ∧ error.line = some number ∧
        Expr.parse (Anchor.remainder (trim line)) = .error cause ∧
        error.message = cause.message ∧
        (error.column.isSome ↔ (Anchor.decompose (trim line)).1 = []) ∧
        ∀ column, error.column = some column → cause.BlamesAt line column) ∧
      ∀ diagnostic ∈ compilation.diagnostics, ∀ number, diagnostic.line = some number →
        diagnostic.Shows source.toList number := by
  intro compilation
  constructor
  · intro error member
    rw [show compilation.document.errors = _ from Document.errors_parse resolve source] at member
    obtain ⟨⟨line, number⟩, inSource, inLine⟩ := List.mem_flatMap.mp member
    obtain ⟨cause, failed, message, numbered, columns⟩ := Contribution.exists_blamesAt inLine
    exact ⟨line, number, cause, inSource, numbered, failed, message, columns⟩
  · intro diagnostic member number numbered
    cases List.mem_append.mp member with
    | inl inDocument =>
        obtain ⟨line, other, inSource, inLine⟩ :=
          Document.exists_line_of_mem_diagnostics resolve source inDocument
        have same := Contribution.line_of_mem_diagnostics _ _ _ _ inLine
        rw [numbered] at same
        obtain rfl := Option.some.inj same
        exact Diagnostic.shows_of_line inSource inLine
    | inr inExpansion =>
        obtain ⟨scene, -, unknown⟩ := List.mem_flatMap.mp inExpansion
        obtain ⟨node, -, rfl⟩ := List.mem_map.mp unknown
        cases numbered

end Wireframe
