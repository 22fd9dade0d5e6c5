import Mathlib
import Wireframe.Proofs.Document.Anchor
import Wireframe.Proofs.Document.Draft
import Wireframe.Style.Shorthand

/-! An anchor means what a style line would mean. The styles of a layout line can be written
on lines of their own, and what the anchors leave on a line after them. -/

namespace Wireframe

open Text

namespace Style

/-- What a style body can hold between its semicolons. -/
structure IsToken (token : String) : Prop where
  nonempty : token.toList ≠ []
  trimmed : trim token.toList = token.toList
  single : ';' ∉ token.toList

/-- What a style line can give to an entity. -/
structure IsWritable (entity : String) (tokens : List String) : Prop where
  plain : Name.IsPlain entity
  nonempty : tokens ≠ []
  each : ∀ token ∈ tokens, IsToken token

theorem isToken_of_mem_tokens {body : List Char} {token : String}
    (member : token ∈ tokens body) : IsToken token := by
  obtain ⟨text, kept, rfl⟩ := List.mem_map.mp member
  obtain ⟨listed, nonempty⟩ := List.mem_filter.mp kept
  obtain ⟨piece, split, rfl⟩ := List.mem_map.mp listed
  constructor
  case nonempty =>
    rw [String.toList_ofList]
    exact of_decide_eq_true nonempty
  case trimmed => rw [String.toList_ofList, trim_trim]
  case single =>
    rw [String.toList_ofList]
    exact fun inside => notMem_of_mem_splitOn split ((trim_sublist piece).subset inside)

/-- Tokens as a style body has them. -/
def spell (tokens : List String) : List Char :=
  [';', ' '].intercalate (tokens.map String.toList)

/-- The style line of an entity. -/
def line (entity : String) (tokens : List String) : List Char :=
  entity.toList ++ ':' :: ' ' :: spell tokens

variable {entity : String} {tokens : List String}

theorem spell_cons_cons (token next : String) (rest : List String) :
    spell (token :: next :: rest) = token.toList ++ [';', ' '] ++ spell (next :: rest) := by
  simp [spell, List.intercalate_cons_cons]

/-- Each token stands between semicolons with a blank before it. -/
theorem cons_spell (nonempty : tokens ≠ []) :
    ' ' :: spell tokens = [';'].intercalate (tokens.map (' ' :: ·.toList)) := by
  induction tokens with
  | nil => exact absurd rfl nonempty
  | cons token rest ih =>
      cases rest with
      | nil => simp [spell]
      | cons next others =>
          have later := ih (List.cons_ne_nil next others)
          simp only [spell_cons_cons, List.map_cons, List.intercalate_cons_cons] at later ⊢
          rw [← later]
          simp

theorem tokens_spell (nonempty : tokens ≠ []) (all : ∀ token ∈ tokens, IsToken token) :
    Style.tokens (' ' :: spell tokens) = tokens := by
  have pieces : (' ' :: spell tokens).splitOn ';' = tokens.map (' ' :: ·.toList) := by
    rw [cons_spell nonempty]
    apply List.splitOn_intercalate
    · intro piece member
      obtain ⟨token, listed, rfl⟩ := List.mem_map.mp member
      simpa using (all token listed).single
    · simpa using nonempty
  have trimmed : (tokens.map (' ' :: ·.toList)).map trim = tokens.map String.toList := by
    rw [List.map_map]
    exact List.map_congr_left fun token listed => (all token listed).trimmed
  have kept : (tokens.map String.toList).filter (· ≠ []) = tokens.map String.toList := by
    rw [List.filter_eq_self]
    intro text member
    obtain ⟨token, listed, rfl⟩ := List.mem_map.mp member
    exact decide_eq_true (all token listed).nonempty
  rw [Style.tokens, pieces, trimmed, kept, List.map_map]
  simp [Function.comp_def, String.ofList_toList]

theorem trimEnd_spell (nonempty : tokens ≠ []) (all : ∀ token ∈ tokens, IsToken token) :
    spell tokens ≠ [] ∧ trimEnd (spell tokens) = spell tokens := by
  induction tokens with
  | nil => exact absurd rfl nonempty
  | cons token rest ih =>
      cases rest with
      | nil =>
          have only := all token List.mem_cons_self
          have ends := trimEnd_trim token.toList
          rw [only.trimmed] at ends
          rw [show spell [token] = token.toList from List.intercalate_singleton]
          exact ⟨only.nonempty, ends⟩
      | cons next others =>
          obtain ⟨laterNonempty, laterEnds⟩ := ih (List.cons_ne_nil next others)
            fun token listed => all token (List.mem_cons_of_mem _ listed)
          rw [spell_cons_cons]
          refine ⟨List.append_ne_nil_of_right_ne_nil _ laterNonempty, ?_⟩
          rw [trimEnd_append_of_ne_nil (laterEnds.symm ▸ laterNonempty), laterEnds]

theorem line_ne_nil : line entity tokens ≠ [] :=
  List.append_ne_nil_of_right_ne_nil _ (List.cons_ne_nil ':' _)

theorem trim_line (writable : IsWritable entity tokens) :
    trim (line entity tokens) = line entity tokens := by
  obtain ⟨bodyNonempty, bodyEnds⟩ := trimEnd_spell writable.nonempty writable.each
  obtain ⟨head, tail, named, isHead, -⟩ := writable.plain
  have begins : trimStart (line entity tokens) = line entity tokens := by
    rw [line, named]
    exact List.dropWhile_cons_of_neg (by simp [Name.isBlank_of_isHead isHead])
  have split : line entity tokens = entity.toList ++ [':', ' '] ++ spell tokens := by simp [line]
  rw [trim, begins, split, trimEnd_append_of_ne_nil (bodyEnds.symm ▸ bodyNonempty), bodyEnds]

theorem ofText?_line (plain : Name.IsPlain entity) :
    Labelled.ofText? (line entity tokens) = some ⟨entity.toList, [], ' ' :: spell tokens⟩ := by
  apply Labelled.ofText?_eq_some_iff.mpr
  refine ⟨?_, ?_, nofun⟩
  · simp [line]
  · rwa [String.ofList_toList]

end Style

namespace Anchor

theorem isWritable_of_mem_styles {text : List Char} {entity : String} {tokens : List String}
    (member : (entity, tokens) ∈ styles text) : Style.IsWritable entity tokens := by
  obtain ⟨listed, nonempty⟩ := List.mem_filter.mp member
  obtain ⟨anchor, cut, same⟩ := List.mem_map.mp listed
  obtain ⟨rfl, rfl⟩ := Prod.mk.inj same
  constructor
  case plain => exact isPlain_entity text anchor cut
  case nonempty => simpa using nonempty
  case each => exact fun token inside => Style.isToken_of_mem_tokens inside

/-- The lines that say apart what a layout line says with anchors. -/
def spell (text : List Char) : List (List Char) :=
  (styles text).map (fun (entity, tokens) => Style.line entity tokens) ++ [remainder text]

end Anchor

namespace Contribution

variable (resolve : Resolver) (number : Nat)

theorem ofLine_style {entity : String} {tokens : List String}
    (writable : Style.IsWritable entity tokens) :
    ofLine resolve number (Style.line entity tokens) =
      ⟨[.style number (String.ofList (Style.line entity tokens)) entity tokens], [], []⟩ ++
        ofStyles resolve number entity tokens := by
  unfold ofLine
  simp only [Style.trim_line writable, Style.line_ne_nil, if_false,
    Style.ofText?_line writable.plain, Style.tokens_spell writable.nonempty writable.each,
    String.ofList_toList]

theorem exists_styles (styled : List (String × List String)) : ∃ edits warnings,
    join (styled.map fun (entity, tokens) => ofStyles resolve number entity tokens) =
        ⟨[], edits, warnings⟩ ∧
      ∀ warning ∈ warnings, warning.level = .warning := by
  refine ⟨_, _, join_ofStyles resolve number styled, ?_⟩
  intro warning member
  obtain ⟨token, -, rfl⟩ := List.mem_map.mp member
  rfl

/-- Style lines add a statement each, and otherwise what their styles add. -/
theorem ofLines_styled (styled : List (String × List String))
    (writable : ∀ entity tokens, (entity, tokens) ∈ styled → Style.IsWritable entity tokens) :
    ofLines resolve (styled.map fun (entity, tokens) => (Style.line entity tokens, number)) =
      let styles := join (styled.map fun (entity, tokens) => ofStyles resolve number entity tokens)
      ⟨styled.map fun (entity, tokens) =>
          .style number (String.ofList (Style.line entity tokens)) entity tokens,
        styles.edits, styles.diagnostics⟩ := by
  induction styled with
  | nil => rfl
  | cons first rest ih =>
      obtain ⟨entity, tokens⟩ := first
      have here := writable entity tokens List.mem_cons_self
      have later := ih fun entity tokens member => writable entity tokens (.tail _ member)
      rw [List.map_cons, ofLines_cons, later, ofLine_style resolve number here, List.map_cons,
        join_cons]
      rfl

theorem ofLine_layout {source : List Char} (nonblank : trim source ≠ [])
    (layout : Labelled.ofText? (trim source) = none) :
    ofLine resolve number source =
      join ((Anchor.styles (trim source)).map fun (entity, tokens) =>
          ofStyles resolve number entity tokens) ++
        ofLayout number (byteSize (source.takeWhile isBlank)) (trim source)
          (Anchor.remainder (trim source)) := by
  unfold ofLine
  simp only [nonblank, if_false, layout]

/-- What the anchors leave has none left, so it adds what the layout adds. -/
theorem ofLine_remainder {text : List Char} (kept : Anchor.remainder text ≠ []) :
    ofLine resolve number (Anchor.remainder text) =
      ofLayout number 0 (Anchor.remainder text) (Anchor.remainder text) := by
  have trimmed := Anchor.trim_remainder text
  have unblank : (Anchor.remainder text).takeWhile isBlank = [] := by
    cases begins : Anchor.remainder text with
    | nil => rfl
    | cons c rest =>
        have notBlank := isBlank_head_trim (trimmed.trans begins)
        exact List.takeWhile_cons_of_neg (by simp [notBlank])
  have nonblank : trim (Anchor.remainder text) ≠ [] := trimmed.symm ▸ kept
  have layout : Labelled.ofText? (trim (Anchor.remainder text)) = none :=
    trimmed.symm ▸ Anchor.ofText?_remainder text
  rw [ofLine_layout resolve number nonblank layout, trimmed, Anchor.styles_remainder,
    Anchor.remainder_remainder, unblank]
  rfl

/-- What the lines that stand for a layout line add, which is what it adds but for the
statements of the styles, the text of the layout, and the column of an error. -/
theorem ofLines_spell {text : List Char} (kept : Anchor.remainder text ≠ []) :
    let styles := join ((Anchor.styles text).map fun (entity, tokens) =>
      ofStyles resolve number entity tokens)
    ofLines resolve ((Anchor.spell text).map (·, number)) =
      ⟨(Anchor.styles text).map fun (entity, tokens) =>
          .style number (String.ofList (Style.line entity tokens)) entity tokens,
        styles.edits, styles.diagnostics⟩ ++
        ofLayout number 0 (Anchor.remainder text) (Anchor.remainder text) := by
  intro styles
  rw [Anchor.spell, List.map_append, List.map_map, ofLines_append]
  congr 1
  · exact ofLines_styled resolve number (Anchor.styles text) fun _ _ member =>
      Anchor.isWritable_of_mem_styles member
  · rw [List.map_singleton, ofLines_cons, ofLine_remainder resolve number kept]
    exact append_empty _

end Contribution

namespace Draft

/-- A layout line and the lines that say apart what it says with anchors give the same
templates and warnings, and the same expression or the same error. The column of the error
counts from the start of the line that it is on, and is not known if an anchor was cut. -/
theorem inline_styles_as_lines (resolve : Resolver) (draft : Draft) (number : Nat)
    {source : List Char} (nonblank : trim source ≠ [])
    (layout : Labelled.ofText? (trim source) = none) :
    let text := trim source
    let remainder := Anchor.remainder text
    let inline := draft.read resolve number source
    let apart := draft.readAll resolve ((Anchor.spell text).map (·, number))
    let styled : List Statement := (Anchor.styles text).map fun (entity, tokens) =>
      .style number (String.ofList (Style.line entity tokens)) entity tokens
    ∃ templates warnings, (∀ warning ∈ warnings, warning.level = .warning) ∧
      match Expr.parse remainder with
      | .ok expression =>
          inline =
            ⟨draft.statements ++ [.layout number (String.ofList text) expression],
              templates, draft.diagnostics ++ warnings⟩ ∧
          apart =
            ⟨draft.statements ++ styled ++
                [.layout number (String.ofList remainder) expression],
              templates, draft.diagnostics ++ warnings⟩
      | .error error =>
          let leading := byteSize (source.takeWhile isBlank)
          let column :=
            if (Anchor.decompose text).1 = [] then some (leading + error.offset + 1) else none
          inline =
            ⟨draft.statements, templates,
              draft.diagnostics ++ warnings ++ [⟨.error, error.message, some number, column⟩]⟩ ∧
          apart =
            ⟨draft.statements ++ styled, templates,
              draft.diagnostics ++ warnings ++
                [⟨.error, error.message, some number, some (error.offset + 1)⟩]⟩ := by
  intro text remainder inline apart styled
  obtain ⟨c, member, notBlank⟩ := exists_not_blank nonblank
  have kept : remainder ≠ [] := Anchor.remainder_ne_nil member notBlank
  have uncut : remainder = text ↔ (Anchor.decompose text).1 = [] :=
    Anchor.remainder_eq_self_iff (trim_trim source)
  obtain ⟨edits, warnings, styles, onlyWarnings⟩ :=
    Contribution.exists_styles resolve number (Anchor.styles text)
  have inlineAdds : inline = draft.add (⟨[], edits, warnings⟩ ++
      Contribution.ofLayout number (byteSize (source.takeWhile isBlank)) text remainder) := by
    rw [← styles, ← Contribution.ofLine_layout resolve number nonblank layout]
    rfl
  have apartAdds : apart = draft.add (⟨styled, edits, warnings⟩ ++
      Contribution.ofLayout number 0 remainder remainder) := by
    rw [show apart = _ from readAll_eq_add resolve draft _,
      Contribution.ofLines_spell resolve number kept, styles]
  rw [inlineAdds, apartAdds]
  simp only [Contribution.ofLayout, kept, if_false]
  cases Expr.parse remainder with
  | ok expression =>
      refine ⟨draft.templates.applyAll (edits ++ expression.edits number), warnings,
        onlyWarnings, ?_, ?_⟩
      · simp only [add, Contribution.mk_append_mk, List.append_nil, List.nil_append]
      · simp only [add, Contribution.mk_append_mk, List.append_nil, List.append_assoc]
  | error error =>
      refine ⟨draft.templates.applyAll edits, warnings, onlyWarnings, ?_, ?_⟩
      · simp only [add, Contribution.mk_append_mk, List.append_nil, List.append_assoc, uncut]
      · -- what is left has no blanks before it and no anchors, so the offset gives the column
        simp only [add, Contribution.mk_append_mk, List.append_nil, List.append_assoc, if_true,
          Nat.zero_add]

theorem inline_styles_as_lines_in_parentheses :
    let source := "  (a: bg red; odd) / b:".toList
    let expression : Expr := .group .column [.entity "a", .entity "b"]
    trim source ≠ [] ∧ Labelled.ofText? (trim source) = none ∧
      ∃ templates warnings,
        empty.read Shorthand.resolve 7 source =
          ⟨[.layout 7 "(a: bg red; odd) / b:" expression], templates, warnings⟩ ∧
        empty.readAll Shorthand.resolve
            [("a: bg red; odd".toList, 7), ("(a) / b".toList, 7)] =
          ⟨[.style 7 "a: bg red; odd" "a" ["bg red", "odd"], .layout 7 "(a) / b" expression],
            templates, warnings⟩ := by
  intro source expression
  have nonblank : trim "  (a: bg red; odd) / b:".toList ≠ [] := by decide
  have layout : Labelled.ofText? (trim "  (a: bg red; odd) / b:".toList) = none := by cbv
  have trimmed : trim "  (a: bg red; odd) / b:".toList = "(a: bg red; odd) / b:".toList := by cbv
  have styles : Anchor.styles "(a: bg red; odd) / b:".toList = [("a", ["bg red", "odd"])] := by cbv
  have remainder : Anchor.remainder "(a: bg red; odd) / b:".toList = "(a) / b".toList := by cbv
  have reading : Expr.parse "(a) / b".toList = .ok expression := by cbv
  refine ⟨nonblank, layout, ?_⟩
  obtain ⟨templates, warnings, -, same⟩ :=
    inline_styles_as_lines Shorthand.resolve empty 7 nonblank layout
  simp only [Anchor.spell, trimmed, styles, remainder, reading] at same
  exact ⟨templates, warnings, same⟩

/-- Blanks before a layout count for the column of an error, though no anchor is cut. -/
theorem column_after_blanks :
    let source := " +".toList
    let inline := empty.read Shorthand.resolve 1 source
    let apart := empty.readAll Shorthand.resolve ((Anchor.spell (trim source)).map (·, 1))
    trim source ≠ [] ∧ Labelled.ofText? (trim source) = none ∧
      (Anchor.decompose (trim source)).1 = [] ∧
      inline.diagnostics = [⟨.error, "unexpected token '+' at 0", some 1, some 2⟩] ∧
      apart.diagnostics = [⟨.error, "unexpected token '+' at 0", some 1, some 1⟩] := by
  have nonblank : trim " +".toList ≠ [] := by decide
  have layout : Labelled.ofText? (trim " +".toList) = none := by cbv
  have trimmed : trim " +".toList = "+".toList := by decide
  have uncut : Anchor.decompose "+".toList = ([], "+".toList) := by cbv
  have remainder : Anchor.remainder "+".toList = "+".toList := by cbv
  have styles : Anchor.styles "+".toList = [] := by cbv
  have reading : Expr.parse "+".toList =
    .error (.parse (.unexpectedToken .plus ⟨0, 1⟩ [.openParen])) := by cbv
  have kept : Anchor.remainder "+".toList ≠ [] := by rw [remainder]; decide
  have inlineAdds := Contribution.ofLine_layout Shorthand.resolve 1 nonblank layout
  have apartAdds := Contribution.ofLines_spell Shorthand.resolve 1 kept
  simp only [trimmed, remainder, styles, Contribution.ofLayout, reading] at inlineAdds apartAdds
  refine ⟨nonblank, layout, ?_, ?_, ?_⟩
  · rw [trimmed, uncut]
  · rw [read, inlineAdds]
    decide
  · rw [readAll_eq_add, trimmed, apartAdds]
    decide

end Draft

end Wireframe
