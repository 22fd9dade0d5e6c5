import Mathlib
import Wireframe.Compilation
import Wireframe.Proofs.Document.Draft
import Wireframe.Proofs.Document.Templates
import Wireframe.Proofs.Text
import Wireframe.Style.Shorthand

/-! A layout line that does not read as an expression adds nothing but the styles of its
anchors and its own error, so without anchors it might as well be blank. -/

namespace Wireframe

open Text

namespace Registry

variable {registry : Registry} {name other : String}

theorem get?_ensure (registry : Registry) (name : String) (line : Nat) (other : String) :
    (registry.ensure name line).get? other =
      (registry.get? other).or
        (if name = other then some (Template.new name line) else none) := by
  unfold ensure get?
  split
  next known =>
    by_cases same : name = other
    · subst same
      obtain ⟨template, found⟩ := Option.isSome_iff_exists.mp
        (show (registry.templates.find? (·.name == name)).isSome by simpa [contains] using known)
      rw [found, Option.some_or]
    · simp [same]
  next =>
    rw [List.find?_append]
    by_cases same : name = other
    · simp [same, Template.new]
    · simp [same, Template.new]

theorem get?_modify (registry : Registry) (name : String) (change : Template → Template)
    (keeps : ∀ template, (change template).name = template.name) (other : String) :
    (registry.modify name change).get? other = (registry.get? other).map fun template =>
      if template.name = name then change template else template := by
  unfold modify get?
  rw [List.find?_map]
  congr 2
  funext template
  simp only [Function.comp_apply]
  split
  · rw [keeps]
  · rfl

/-- Gives an entity the declarations of those tokens that resolve. -/
def applyTokens (resolve : Resolver) (line : Nat) (registry : Registry) (entity : String)
    (tokens : List String) : Registry :=
  (tokens.filterMap resolve).foldl
    (fun styled declaration => styled.modify entity (Template.applyStyle declaration))
    (registry.ensure entity line)

theorem applyAll_style (known : name ∈ registry.names) (line : Nat)
    (declarations : List Declaration) :
    registry.applyAll (declarations.map (.style name line)) =
      declarations.foldl
        (fun styled declaration => styled.modify name (Template.applyStyle declaration))
        registry := by
  induction declarations generalizing registry with
  | nil => rfl
  | cons declaration rest ih =>
      have names : (registry.modify name (Template.applyStyle declaration)).names =
          registry.names := names_modify registry name fun _ => rfl
      rw [List.foldl_cons, ← ih (names ▸ known)]
      simp only [List.map_cons, applyAll, List.foldl_cons, apply, ensure_of_mem known]

theorem names_applyTokens (resolve : Resolver) (line : Nat) (registry : Registry)
    (entity : String) (tokens : List String) :
    (registry.applyTokens resolve line entity tokens).names =
      (registry.ensure entity line).names := by
  unfold applyTokens
  generalize registry.ensure entity line = seen
  induction tokens.filterMap resolve generalizing seen with
  | nil => rfl
  | cons declaration rest ih =>
      rw [List.foldl_cons, ih]
      exact names_modify seen entity fun _ => rfl

/-- The content that a name has in the registry. -/
def contentOf? (registry : Registry) (name : String) : Option Expr :=
  (registry.get? name).bind (·.content)

theorem contentOf?_ensure (registry : Registry) (name : String) (line : Nat) (other : String) :
    (registry.ensure name line).contentOf? other = registry.contentOf? other := by
  unfold contentOf?
  rw [get?_ensure]
  cases registry.get? other with
  | some template => rfl
  | none =>
      rw [Option.none_or]
      split
      · rfl
      · rfl

theorem contentOf?_applyStyle (registry : Registry) (name : String) (declaration : Declaration)
    (other : String) :
    (registry.modify name (Template.applyStyle declaration)).contentOf? other =
      registry.contentOf? other := by
  unfold contentOf?
  rw [get?_modify registry name (Template.applyStyle declaration) fun _ => rfl]
  cases registry.get? other with
  | none => rfl
  | some template =>
      rw [Option.map_some, Option.bind_some, Option.bind_some]
      split
      · rfl
      · rfl

theorem contentOf?_applyTokens (resolve : Resolver) (line : Nat) (registry : Registry)
    (entity : String) (tokens : List String) (other : String) :
    (registry.applyTokens resolve line entity tokens).contentOf? other =
      registry.contentOf? other := by
  rw [← contentOf?_ensure registry entity line other]
  unfold applyTokens
  generalize registry.ensure entity line = seen
  induction tokens.filterMap resolve generalizing seen with
  | nil => rfl
  | cons declaration rest ih => rw [List.foldl_cons, ih, contentOf?_applyStyle]

/-- Gives several entities their declarations in turn. -/
def applyStyled (resolve : Resolver) (line : Nat) (registry : Registry)
    (styled : List (String × List String)) : Registry :=
  styled.foldl
    (fun registry (entity, tokens) => registry.applyTokens resolve line entity tokens) registry

theorem applyAll_styled (resolve : Resolver) (line : Nat) (registry : Registry)
    (styled : List (String × List String)) :
    registry.applyAll (styled.flatMap fun (entity, tokens) =>
        .sight entity line :: (tokens.filterMap resolve).map (.style entity line)) =
      registry.applyStyled resolve line styled := by
  induction styled generalizing registry with
  | nil => rfl
  | cons first rest ih =>
      obtain ⟨entity, tokens⟩ := first
      have known : entity ∈ (registry.ensure entity line).names := mem_names_ensure.mpr (.inr rfl)
      rw [List.flatMap_cons, applyAll_append, ih, applyStyled, applyStyled, List.foldl_cons]
      congr 1
      exact applyAll_style known line (tokens.filterMap resolve)

theorem mem_names_applyStyled (resolve : Resolver) (line : Nat) (registry : Registry)
    (styled : List (String × List String)) (name : String) :
    name ∈ (registry.applyStyled resolve line styled).names ↔
      name ∈ registry.names ∨ name ∈ styled.map Prod.fst := by
  induction styled generalizing registry with
  | nil => simp [applyStyled]
  | cons first rest ih =>
      rw [applyStyled, List.foldl_cons, ← applyStyled, ih, names_applyTokens, mem_names_ensure,
        List.map_cons, List.mem_cons, or_assoc]

theorem contentOf?_applyStyled (resolve : Resolver) (line : Nat) (registry : Registry)
    (styled : List (String × List String)) (name : String) :
    (registry.applyStyled resolve line styled).contentOf? name = registry.contentOf? name := by
  induction styled generalizing registry with
  | nil => rfl
  | cons first rest ih =>
      rw [applyStyled, List.foldl_cons, ← applyStyled, ih, contentOf?_applyTokens]

end Registry

namespace Contribution

variable (resolve : Resolver) (number : Nat)

theorem ofLine_append (source : List Char) {blanks : List Char} (blank : ∀ c ∈ blanks, isBlank c) :
    ofLine resolve number (source ++ blanks) = ofLine resolve number source := by
  have trimmed : trim (source ++ blanks) = trim source := trim_append blank
  by_cases empty : trim source = []
  · rw [ofLine_blank _ _ _ empty, ofLine_blank _ _ _ (trimmed.trans empty)]
  · have leading : (source ++ blanks).takeWhile isBlank = source.takeWhile isBlank := by
      rw [List.takeWhile_append, if_neg]
      intro all
      have whole := (List.takeWhile_prefix isBlank).eq_of_length all
      exact empty (trim_eq_nil_iff.mpr (List.takeWhile_eq_self_iff.mp whole))
    unfold ofLine
    rw [trimmed, leading]

theorem ofLine_dropReturn (segment : List Char) :
    ofLine resolve number (dropReturn segment) = ofLine resolve number segment := by
  obtain ⟨blanks, blank, ends⟩ := exists_dropReturn_append segment
  rw [← ofLine_append resolve number _ blank, ends]

/-- A rejected line adds the styles of its anchors and its error. -/
theorem ofLine_rejected {text : List Char} {anchored : List (String × List String)}
    {error : LayoutError} (rejected : Line.ofSource text = .layout anchored (.error error)) :
    ∃ column, ofLine resolve number text =
      ⟨[], anchored.flatMap fun (entity, tokens) =>
          .sight entity number :: (tokens.filterMap resolve).map (.style entity number),
        ((anchored.flatMap Prod.snd).filter fun token => (resolve token).isNone).map
          (Diagnostic.unsupportedStyle · number) ++
          [⟨.error, error.message, some number, column⟩]⟩ := by
  obtain ⟨statements, errors, outcome, equal⟩ := exists_outcome resolve number text
  rw [rejected] at outcome equal
  cases outcome with
  | rejected column =>
      refine ⟨column, ?_⟩
      rw [equal]
      simp [Line.edits, Line.warnings, Line.styled, Line.expression?]

end Contribution

namespace Document

/-- The source with another text on one line, counted from one. -/
def replaceLine (source : String) (number : Nat) (text : List Char) : String :=
  String.ofList (['\n'].intercalate ((segments source.toList).set (number - 1) text))

theorem segments_replaceLine (source : String) (number : Nat) {text : List Char}
    (single : '\n' ∉ text) :
    segments (replaceLine source number text).toList =
      (segments source.toList).set (number - 1) text := by
  rw [replaceLine, String.toList_ofList]
  apply List.splitOn_intercalate
  · intro piece member
    obtain inSource | rfl := List.mem_or_eq_of_mem_set member
    · exact notMem_of_mem_splitOn inSource
    · exact single
  · rw [ne_eq, List.set_eq_nil_iff]
    exact List.splitOn_ne_nil '\n' source.toList

variable (resolve : Resolver)

/-- Segments add what their lines add. -/
theorem contribution_eq_segments (source : String) :
    contribution resolve source = .ofLines resolve ((segments source.toList).zipIdx 1) := by
  obtain ⟨init, last, pieces, equal⟩ := exists_segments source.toList
  rw [show contribution resolve source = .ofLines resolve ((lines source.toList).zipIdx 1) from rfl,
    equal, pieces, List.zipIdx_append, List.zipIdx_append, Contribution.ofLines_append,
    Contribution.ofLines_append, List.length_map]
  congr 1
  · unfold Contribution.ofLines
    rw [List.zipIdx_map, List.map_map]
    congr 2
    funext pair
    exact Contribution.ofLine_dropReturn resolve pair.2 pair.1
  · split
    next empty => rw [empty]; rfl
    next => rfl

/-- A line can be told from what stands around it, and a blank line leaves only that. -/
theorem exists_around {source : String} {text : List Char} {number : Nat}
    (member : (text, number) ∈ numbered source) {blank : List Char}
    (blanks : ∀ c ∈ blank, isBlank c) (single : '\n' ∉ blank) :
    ∃ before after : Contribution,
      contribution resolve source = before ++ (.ofLine resolve number text ++ after) ∧
      contribution resolve (replaceLine source number blank) = before ++ after := by
  obtain ⟨positive, listed⟩ : 1 ≤ number ∧ (lines source.toList)[number - 1]? = some text :=
    List.mem_zipIdx_iff_le_and_getElem?_sub.mp member
  obtain ⟨segment, found, same⟩ := exists_segment_of_line listed
  have sameLine : Contribution.ofLine resolve number segment =
      Contribution.ofLine resolve number text := by
    cases same with
    | inl equal => rw [equal]
    | inr returned => rw [← returned, Contribution.ofLine_dropReturn]
  obtain ⟨within, rfl⟩ := List.getElem?_eq_some_iff.mp found
  obtain ⟨init, rest, pieces, length, replaced⟩ := List.exists_of_set within
  have place : 1 + init.length = number := by omega
  have nothing := Contribution.ofLine_blank resolve number blank (trim_eq_nil_iff.mpr blanks)
  refine ⟨.ofLines resolve (init.zipIdx 1), .ofLines resolve (rest.zipIdx (number + 1)), ?_, ?_⟩
  · rw [contribution_eq_segments, pieces, List.zipIdx_append, Contribution.ofLines_append,
      List.zipIdx_cons, Contribution.ofLines_cons, place, sameLine]
  · rw [contribution_eq_segments, segments_replaceLine _ _ single, replaced, List.zipIdx_append,
      Contribution.ofLines_append, List.zipIdx_cons, Contribution.ofLines_cons, place, nothing,
      Contribution.empty_append]

theorem parse_rejected {source : String} {text : List Char} {number : Nat} {error : LayoutError}
    (rejected : Line.ofSource text = .layout [] (.error error))
    (member : (text, number) ∈ numbered source) {blank : List Char}
    (blanks : ∀ c ∈ blank, isBlank c) (single : '\n' ∉ blank) :
    ∃ front back column,
      (parse resolve source).diagnostics =
        front ++ ⟨.error, error.message, some number, column⟩ :: back ∧
      parse resolve (replaceLine source number blank) =
        { parse resolve source with
          source := replaceLine source number blank
          diagnostics := front ++ back } := by
  obtain ⟨before, after, whole, replaced⟩ := exists_around resolve member blanks single
  obtain ⟨column, equal⟩ := Contribution.ofLine_rejected resolve number rejected
  refine ⟨before.diagnostics, after.diagnostics, column, ?_, ?_⟩
  · rw [parse, whole, equal]
    rfl
  · rw [parse, parse, whole, replaced, equal]
    rfl

/-- A rejected line adds no statement, one error after the warnings of its anchors, and
their styles. Without anchors it can be made blank, which takes its error away and changes
nothing else that a compilation gives. -/
theorem rejected_line_leaves_no_trace {text : List Char}
    {anchored : List (String × List String)} {error : LayoutError}
    (rejected : Line.ofSource text = .layout anchored (.error error)) :
    (∀ (draft : Draft) (number : Nat),
      let after := draft.read resolve number text
      after.statements = draft.statements ∧
      (∃ column, after.diagnostics = draft.diagnostics ++
        ((anchored.flatMap Prod.snd).filter fun token => (resolve token).isNone).map
          (Diagnostic.unsupportedStyle · number) ++
        [⟨.error, error.message, some number, column⟩]) ∧
      after.templates = draft.templates.applyStyled resolve number anchored ∧
      (∀ name, name ∈ after.templates.names ↔
        name ∈ draft.templates.names ∨ name ∈ anchored.map Prod.fst) ∧
      ∀ name, after.templates.contentOf? name = draft.templates.contentOf? name) ∧
    (anchored = [] → ∀ (purpose : Purpose) (roots : List String) (source : String) (number : Nat)
      (blank : List Char), (text, number) ∈ numbered source → (∀ c ∈ blank, isBlank c) →
        '\n' ∉ blank →
      let compiled := Compilation.ofSource resolve purpose roots source
      let replaced := replaceLine source number blank
      ∃ front back column,
        compiled.document.diagnostics =
          front ++ ⟨.error, error.message, some number, column⟩ :: back ∧
        Compilation.ofSource resolve purpose roots replaced =
          { compiled with
            document := { compiled.document with
              source := replaced, diagnostics := front ++ back } }) := by
  constructor
  · intro draft number after
    obtain ⟨column, equal⟩ := Contribution.ofLine_rejected resolve number rejected
    have templates :
        after.templates = draft.templates.applyStyled resolve number anchored := by
      rw [← Registry.applyAll_styled]
      change draft.templates.applyAll _ = _
      rw [equal]
    refine ⟨?_, ⟨column, ?_⟩, templates, ?_, ?_⟩
    · change draft.statements ++ _ = _
      rw [equal, List.append_nil]
    · change draft.diagnostics ++ _ = _
      rw [equal, List.append_assoc]
    · intro name
      rw [templates, Registry.mem_names_applyStyled]
    · intro name
      rw [templates, Registry.contentOf?_applyStyled]
  · intro unanchored purpose roots source number blank member blanks single compiled replaced
    subst unanchored
    obtain ⟨front, back, column, diagnostics, equal⟩ :=
      parse_rejected resolve rejected member blanks single
    refine ⟨front, back, column, diagnostics, ?_⟩
    change (⟨purpose, parse resolve replaced, (parse resolve replaced).expand roots⟩ :
      Compilation) = _
    rw [equal]
    rfl

/-- A second content is an error that the lines around it do not notice. -/
theorem rejected_line_leaves_no_trace_second_content :
    Line.ofSource "  a[b][c]".toList =
        .layout [] (.error (.parse (.invalidContainer ⟨0, 7⟩))) ∧
      ("  a[b][c]".toList, 2) ∈ numbered "a[x]\n  a[b][c]\nb: bg red\na" ∧
      let compiled := Compilation.ofSource Shorthand.resolve .preview []
        "a[x]\n  a[b][c]\nb: bg red\na"
      let replaced := replaceLine "a[x]\n  a[b][c]\nb: bg red\na" 2 [' ']
      ∃ front back column,
        compiled.document.diagnostics = front ++
          ⟨.error, (LayoutError.parse (.invalidContainer ⟨0, 7⟩)).message, some 2, column⟩ ::
            back ∧
        Compilation.ofSource Shorthand.resolve .preview [] replaced =
          { compiled with
            document := { compiled.document with
              source := replaced, diagnostics := front ++ back } } := by
  have rejected : Line.ofSource "  a[b][c]".toList =
      .layout [] (.error (.parse (.invalidContainer ⟨0, 7⟩))) := by cbv
  have member : ("  a[b][c]".toList, 2) ∈ numbered "a[x]\n  a[b][c]\nb: bg red\na" := by decide
  refine ⟨rejected, member, ?_⟩
  exact (rejected_line_leaves_no_trace Shorthand.resolve rejected).2 rfl .preview [] _ 2 [' ']
    member (List.forall_mem_singleton.mpr rfl) (by decide)

end Document

end Wireframe
