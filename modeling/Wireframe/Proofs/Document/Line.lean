import Mathlib.Data.List.DropRight
import Wireframe.Document

/-! What a line reads as, whatever its style tokens mean, and what it adds to a document
then. Cutting the anchors of a line never leaves nothing, since the names stay. -/

namespace Wireframe

open Text

namespace Text

theorem trimEnd_eq_nil_iff {text : List Char} : trimEnd text = [] ↔ ∀ c ∈ text, isBlank c :=
  List.rdropWhile_eq_nil_iff

theorem trim_eq_nil_iff {text : List Char} : trim text = [] ↔ ∀ c ∈ text, isBlank c := by
  unfold trim
  rw [trimEnd_eq_nil_iff]
  constructor
  · intro blankRest
    have startsBlank : trimStart text = [] := by
      rw [← List.head?_eq_none_iff]
      cases first : (trimStart text).head? with
      | none => rfl
      | some c =>
          have blank := blankRest c (List.mem_of_head? first)
          have notBlank := List.head?_dropWhile_not isBlank text
          rw [show text.dropWhile isBlank = trimStart text from rfl, first] at notBlank
          simp [blank] at notBlank
    exact List.dropWhile_eq_nil_iff.mp startsBlank
  · intro blank c member
    exact blank c ((List.dropWhile_suffix isBlank).subset member)

theorem trim_ne_nil {text : List Char} {c : Char} (member : c ∈ text)
    (notBlank : isBlank c = false) : trim text ≠ [] := by
  intro empty
  have blank := trim_eq_nil_iff.mp empty c member
  rw [notBlank] at blank
  cases blank

theorem exists_not_blank {text : List Char} (nonempty : trim text ≠ []) :
    ∃ c ∈ trim text, isBlank c = false := by
  have notBlank := List.rdropWhile_last_not isBlank (trimStart text) nonempty
  exact ⟨_, List.getLast_mem nonempty, Bool.not_eq_true _ ▸ notBlank⟩

end Text

theorem Name.code_of_isHead {c : Char} (head : isHead c) :
    (65 ≤ c.toNat ∧ c.toNat ≤ 90) ∨ (97 ≤ c.toNat ∧ c.toNat ≤ 122) := by
  cases Bool.or_eq_true_iff.mp head with
  | inl upper => exact .inl (of_decide_eq_true upper)
  | inr lower =>
      obtain ⟨least, most⟩ := Bool.and_eq_true_iff.mp lower
      exact .inr ⟨of_decide_eq_true least, of_decide_eq_true most⟩

theorem Name.isBlank_of_isHead {c : Char} (head : isHead c) : isBlank c = false := by
  have range := code_of_isHead head
  simp only [isBlank, Bool.or_eq_false_iff, Bool.and_eq_false_iff, decide_eq_false_iff_not,
    beq_eq_false_iff_ne]
  omega

namespace Labelled

theorem exists_head {text : List Char} {found : Labelled}
    (labelled : ofText? text = some found) :
    ∃ c tail, found.name = c :: tail ∧ Name.isHead c := by
  cases text with
  | nil => cases labelled
  | cons c rest =>
      simp only [ofText?] at labelled
      split at labelled
      · split at labelled
        next head =>
          obtain rfl := Option.some.inj labelled
          exact ⟨c, _, rfl, head⟩
        next => cases labelled
      · cases labelled

theorem exists_head_find {text before : List Char} {fresh : Bool} {found : Labelled}
    (labelled : find? fresh text = some (before, found)) :
    ∃ c tail, found.name = c :: tail ∧ Name.isHead c := by
  induction text generalizing fresh before with
  | nil => cases labelled
  | cons c rest ih =>
      simp only [find?] at labelled
      split at labelled
      next first here =>
        obtain ⟨-, rfl⟩ := Prod.mk.inj (Option.some.inj labelled)
        split at here
        · exact exists_head here
        · cases here
      next =>
        obtain ⟨⟨later, other⟩, inner, same⟩ := Option.map_eq_some_iff.mp labelled
        obtain ⟨-, rfl⟩ := Prod.mk.inj same
        exact ih inner

end Labelled

namespace Anchor

theorem decompose_of_none {text : List Char} (unlabelled : Labelled.find? true text = none) :
    decompose text = ([], text) := by
  rw [decompose]
  split
  · rfl
  · next found => simp [unlabelled] at found

theorem decompose_of_some {text before : List Char} {found : Labelled}
    (labelled : Labelled.find? true text = some (before, found)) :
    decompose text =
      let later := decompose (found.after.dropWhile (!isDelimiter ·))
      (⟨before, found.name, found.gap, found.after.takeWhile (!isDelimiter ·)⟩ :: later.1,
        later.2) := by
  rw [decompose]
  split
  · next missing => simp [labelled] at missing
  · next found' =>
      cases labelled.symm.trans found'
      rfl

/-- What is left of layout text is not empty: it is the whole text, or a name stays. -/
theorem remainder_ne_nil {text : List Char} {c : Char} (member : c ∈ text)
    (notBlank : isBlank c = false) : remainder text ≠ [] := by
  unfold remainder
  cases first : Labelled.find? true text with
  | none =>
      rw [decompose_of_none first]
      exact trim_ne_nil member notBlank
  | some pair =>
      obtain ⟨head, tail, named, isHead⟩ := Labelled.exists_head_find first
      rw [decompose_of_some first]
      apply trim_ne_nil (c := head)
      · simp [kept, named]
      · exact Name.isBlank_of_isHead isHead

end Anchor

/-- A line as it reads: blank, an entity with its style tokens, or layout text with the
tokens of its anchors, which may read as an expression. -/
inductive Line
  | blank
  | style (entity : String) (tokens : List String)
  | layout (anchored : List (String × List String)) (reading : Except LayoutError Expr)

namespace Line

def ofSource (source : List Char) : Line :=
  let text := trim source
  if text = [] then .blank
  else
    match Labelled.ofText? text with
    | some label => .style (String.ofList label.name) (Style.tokens label.after)
    | none => .layout (Anchor.styles text) (Expr.parse (Anchor.remainder text))

/-- How a line reads, by its trimmed text. -/
inductive Reads (source : List Char) : Line → Prop
  | blank : trim source = [] → Reads source .blank
  | style {label : Labelled} : trim source ≠ [] → Labelled.ofText? (trim source) = some label →
      Reads source (.style (String.ofList label.name) (Style.tokens label.after))
  | layout : trim source ≠ [] → Labelled.ofText? (trim source) = none →
      Reads source
        (.layout (Anchor.styles (trim source)) (Expr.parse (Anchor.remainder (trim source))))

theorem reads_ofSource (source : List Char) : Reads source (ofSource source) := by
  unfold ofSource
  by_cases blank : trim source = []
  · simp only [blank, if_true]
    exact .blank blank
  · simp only [blank, if_false]
    cases labelled : Labelled.ofText? (trim source) with
    | some label => exact .style blank labelled
    | none => exact .layout blank labelled

/-- The entities that are given style tokens, in order. -/
def styled : Line → List (String × List String)
  | .blank => []
  | .style entity tokens => [(entity, tokens)]
  | .layout anchored _ => anchored

def expression? : Line → Option Expr
  | .layout _ (.ok expression) => some expression
  | _ => none

/-- A warning for every token that has no meaning. -/
def warnings (resolve : Resolver) (number : Nat) (line : Line) : List Diagnostic :=
  ((line.styled.flatMap Prod.snd).filter fun token => (resolve token).isNone).map
    (Diagnostic.unsupportedStyle · number)

/-- The edits of the styles, whether the line reads as an expression or not, and those of
the expression. -/
def edits (resolve : Resolver) (number : Nat) (line : Line) : List Registry.Edit :=
  line.styled.flatMap (fun (entity, tokens) =>
      .sight entity number :: (tokens.filterMap resolve).map (.style entity number)) ++
    line.expression?.elim [] (Expr.edits number)

/-- What a line comes to: nothing if it is blank, else one statement or one error. -/
inductive Outcome (number : Nat) (raw : String) : Line → List Statement → List Diagnostic → Prop
  | blank : Outcome number raw .blank [] []
  | style {entity : String} {tokens : List String} :
      Outcome number raw (.style entity tokens) [.style number raw entity tokens] []
  | layout {anchored : List (String × List String)} {expression : Expr} :
      Outcome number raw (.layout anchored (.ok expression))
        [.layout number raw expression] []
  | rejected {anchored : List (String × List String)} {error : LayoutError}
      (column : Option Nat) :
      Outcome number raw (.layout anchored (.error error)) []
        [⟨.error, error.message, some number, column⟩]

end Line

namespace Contribution

theorem mk_append_mk (statements laterStatements : List Statement)
    (edits laterEdits : List Registry.Edit) (diagnostics laterDiagnostics : List Diagnostic) :
    (⟨statements, edits, diagnostics⟩ : Contribution) ++
        ⟨laterStatements, laterEdits, laterDiagnostics⟩ =
      ⟨statements ++ laterStatements, edits ++ laterEdits, diagnostics ++ laterDiagnostics⟩ :=
  rfl

theorem join_ofStyles (resolve : Resolver) (number : Nat)
    (styled : List (String × List String)) :
    join (styled.map fun (entity, tokens) => ofStyles resolve number entity tokens) =
      ⟨[], styled.flatMap fun (entity, tokens) =>
          .sight entity number :: (tokens.filterMap resolve).map (.style entity number),
        ((styled.flatMap Prod.snd).filter fun token => (resolve token).isNone).map
          (Diagnostic.unsupportedStyle · number)⟩ := by
  unfold join
  congr 1
  · simp [List.flatMap_map, ofStyles]
  · rw [List.flatMap_map]
    rfl
  · rw [List.flatMap_map, List.filter_flatMap, List.map_flatMap]
    rfl

/-- A line adds what it comes to, the edits and warnings of its styles before the rest. -/
theorem exists_outcome (resolve : Resolver) (number : Nat) (source : List Char) :
    ∃ statements errors,
      Line.Outcome number (String.ofList (trim source)) (Line.ofSource source)
        statements errors ∧
      ofLine resolve number source =
        ⟨statements, (Line.ofSource source).edits resolve number,
          (Line.ofSource source).warnings resolve number ++ errors⟩ := by
  unfold ofLine Line.ofSource
  by_cases blank : trim source = []
  · simp only [blank, if_true]
    exact ⟨[], [], .blank, rfl⟩
  · simp only [blank, if_false]
    cases labelled : Labelled.ofText? (trim source) with
    | some label =>
        refine ⟨_, [], .style, ?_⟩
        simp only [ofStyles, mk_append_mk]
        simp [Line.edits, Line.warnings, Line.styled, Line.expression?]
    | none =>
        obtain ⟨c, member, notBlank⟩ := exists_not_blank blank
        have kept := Anchor.remainder_ne_nil member notBlank
        simp only [join_ofStyles, ofLayout, kept, if_false]
        cases Expr.parse (Anchor.remainder (trim source)) with
        | ok expression =>
            refine ⟨_, [], .layout, ?_⟩
            rw [mk_append_mk]
            simp [Line.edits, Line.warnings, Line.styled, Line.expression?]
        | error error =>
            let column := if Anchor.remainder (trim source) = trim source then
              some (byteSize (source.takeWhile isBlank) + error.offset + 1) else none
            refine ⟨[], _, .rejected column, ?_⟩
            rw [mk_append_mk]
            simp [Line.edits, Line.warnings, Line.styled, Line.expression?, column]

end Contribution

end Wireframe
