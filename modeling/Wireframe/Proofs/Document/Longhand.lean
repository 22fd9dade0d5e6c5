import Wireframe.Compilation
import Wireframe.Proofs.Component.StyleSheet
import Wireframe.Proofs.Document.InlineStyle
import Wireframe.Proofs.Document.Rejection
import Wireframe.Proofs.Document.Written

/-! Documents in which some style tokens are written out as the longhand of what they mean. All
templates, scenes and diagnostics are what they were, and any choice of tokens can be had. -/

namespace Wireframe

open Text

/-! What a line adds to a document. -/

namespace Contribution

/-- What two parts of a source add agrees but for the texts of the statements. -/
structure Agrees (part other : Contribution) : Prop where
  expressions : other.statements.filterMap Statement.expression? =
    part.statements.filterMap Statement.expression?
  edits : other.edits = part.edits
  diagnostics : other.diagnostics = part.diagnostics

theorem Agrees.refl (part : Contribution) : Agrees part part :=
  ⟨rfl, rfl, rfl⟩

theorem Agrees.append {part other later otherLater : Contribution} (first : Agrees part other)
    (second : Agrees later otherLater) : Agrees (part ++ later) (other ++ otherLater) where
  expressions := by
    have here := first.expressions
    have there := second.expressions
    change (other.statements ++ otherLater.statements).filterMap _ =
      (part.statements ++ later.statements).filterMap _
    rw [List.filterMap_append, List.filterMap_append, here, there]
  edits := congrArg₂ (· ++ ·) first.edits second.edits
  diagnostics := congrArg₂ (· ++ ·) first.diagnostics second.diagnostics

variable {number : Nat}

theorem ofStyles_eq {entity : String} {tokens others : List String}
    (spells : List.Forall₂ Shorthand.Spells tokens others) :
    ofStyles Shorthand.resolve number entity others =
      ofStyles Shorthand.resolve number entity tokens := by
  have resolved : others.filterMap Shorthand.resolve = tokens.filterMap Shorthand.resolve := by
    induction spells with
    | nil => rfl
    | cons first _ ih => rw [List.filterMap_cons, List.filterMap_cons, first.resolve_eq, ih]
  have warned : others.filter (fun token => (Shorthand.resolve token).isNone) =
      tokens.filter fun token => (Shorthand.resolve token).isNone := by
    clear resolved
    induction spells with
    | nil => rfl
    | cons first _ ih =>
        have same := first.resolve_eq
        cases first with
        | same => rw [List.filter_cons, List.filter_cons, ih]
        | longhand resolved =>
            rw [List.filter_cons_of_neg (by simp [same, resolved]),
              List.filter_cons_of_neg (by simp [resolved]), ih]
  rw [ofStyles, ofStyles, resolved, warned]

theorem join_ofStyles_eq {styled others : List (String × List String)}
    (spells : List.Forall₂ SpellsAll styled others) :
    join (others.map fun (entity, tokens) => ofStyles Shorthand.resolve number entity tokens) =
      join (styled.map fun (entity, tokens) =>
        ofStyles Shorthand.resolve number entity tokens) := by
  congr 1
  induction spells with
  | nil => rfl
  | @cons pair other _ _ first _ ih =>
      obtain ⟨entity, tokens⟩ := pair
      obtain ⟨name, targets⟩ := other
      obtain ⟨rfl, spells⟩ := first
      rw [List.map_cons, List.map_cons, ih]
      exact congrArg (· :: _) (ofStyles_eq spells)

theorem ofLine_style_of_ofText? (resolve : Resolver) {source : List Char} {label : Labelled}
    (labelled : Labelled.ofText? (trim source) = some label) :
    ofLine resolve number source =
      ⟨[.style number (String.ofList (trim source)) (String.ofList label.name)
          (Style.tokens label.after)], [], []⟩ ++
        ofStyles resolve number (String.ofList label.name) (Style.tokens label.after) := by
  have filled : trim source ≠ [] := by
    intro empty
    rw [empty] at labelled
    cases labelled
  unfold ofLine
  simp only [filled, if_false, labelled]

theorem agrees_ofLayout {leading : Nat} {text other remainder : List Char}
    (uncut : remainder = other ↔ remainder = text) :
    Agrees (ofLayout number leading text remainder) (ofLayout number leading other remainder) := by
  unfold ofLayout
  split
  · exact .refl _
  · cases Expr.parse remainder with
    | ok expression => exact ⟨rfl, rfl, rfl⟩
    | error error => simp only [uncut]; exact .refl _

end Contribution

namespace Document

/-- A line with the blanks around it, and one in which some style tokens are written out. -/
inductive WritesLine : List Char → List Char → Prop
  | around {lead text other trail : List Char} : (∀ c ∈ lead, isBlank c) →
      (∀ c ∈ trail, isBlank c) → Unpadded text → Line.WritesOut text other →
      WritesLine (lead ++ text ++ trail) (lead ++ other ++ trail)

/-- A source, and one in which some style tokens are written out. -/
def WritesOut (source other : String) : Prop :=
  ∃ texts, List.Forall₂ WritesLine (segments source.toList) texts ∧
    other = String.ofList (['\n'].intercalate texts)

end Document

namespace Contribution

open Document

variable {number : Nat}

theorem agrees_of_layout {lead text trail : List Char} {anchors : List Anchor}
    (blankLead : ∀ c ∈ lead, isBlank c) (blankTrail : ∀ c ∈ trail, isBlank c)
    (unpadded : Unpadded text) (unlabelled : Labelled.ofText? text = none)
    (writes : List.Forall₂ Anchor.WritesOut (Anchor.decompose text).1 anchors) :
    let other := Anchor.assemble anchors (Anchor.decompose text).2
    Agrees (ofLine Shorthand.resolve number (lead ++ text ++ trail))
      (ofLine Shorthand.resolve number (lead ++ other ++ trail)) := by
  intro other
  have again : Labelled.ofText? other = none := Line.ofText?_assemble unlabelled writes
  have written : Line.WritesOut text other := .layout unlabelled writes
  have heads : other.head? = text.head? := written.head?_eq
  have unpaddedOther : Unpadded other := written.unpadded unpadded
  by_cases blank : text = []
  · have nothing : other = [] := by
      rw [← List.head?_eq_none_iff, heads, blank]
      rfl
    rw [nothing, blank]
    exact .refl _
  · have filled : other ≠ [] := by
      rw [ne_eq, ← List.head?_eq_none_iff, heads, List.head?_eq_none_iff]
      exact blank
    have trimmed := trim_around blankLead blankTrail unpadded
    have changed := trim_around blankLead blankTrail unpaddedOther
    have remainder : Anchor.remainder other = Anchor.remainder text :=
      Anchor.remainder_assemble writes
    rw [ofLine_layout _ _ (trimmed.symm ▸ blank) (trimmed.symm ▸ unlabelled),
      ofLine_layout _ _ (changed.symm ▸ filled) (changed.symm ▸ again), trimmed, changed,
      takeWhile_around blankLead unpadded blank, takeWhile_around blankLead unpaddedOther filled,
      remainder, join_ofStyles_eq (Anchor.styles_assemble writes)]
    exact .append (.refl _) (agrees_ofLayout (Anchor.remainder_eq_assemble_iff unpadded writes))

theorem agrees_ofLine {line other : List Char} (writes : WritesLine line other) :
    Agrees (ofLine Shorthand.resolve number line) (ofLine Shorthand.resolve number other) := by
  cases writes with
  | around blankLead blankTrail unpadded writes =>
      have trimmed := trim_around blankLead blankTrail unpadded
      have changed := trim_around blankLead blankTrail (writes.unpadded unpadded)
      cases writes with
      | @style label body labelled writes =>
          have again := Labelled.ofText?_with_after labelled body
          rw [ofLine_style_of_ofText? _ (trimmed.symm ▸ labelled),
            ofLine_style_of_ofText? _ (changed.symm ▸ again), ofStyles_eq writes.forall₂_tokens]
          exact .append ⟨rfl, rfl, rfl⟩ (.refl _)
      | layout unlabelled writes =>
          exact agrees_of_layout blankLead blankTrail unpadded unlabelled writes

theorem agrees_ofLines {lines others : List (List Char)}
    (writes : List.Forall₂ WritesLine lines others) (number : Nat) :
    Agrees (ofLines Shorthand.resolve (lines.zipIdx number))
      (ofLines Shorthand.resolve (others.zipIdx number)) := by
  induction writes generalizing number with
  | nil => exact .refl _
  | cons first _ ih =>
      rw [List.zipIdx_cons, List.zipIdx_cons, ofLines_cons, ofLines_cons]
      exact (agrees_ofLine first).append (ih (number + 1))

end Contribution

namespace Document

variable {source other : String}

theorem WritesLine.notMem_newline {line other : List Char} (writes : WritesLine line other)
    (single : '\n' ∉ line) : '\n' ∉ other := by
  cases writes with
  | around _ _ _ writes =>
      have foreign : Shorthand.Foreign '\n' := ⟨by decide, by decide, by decide⟩
      simp only [List.mem_append, not_or] at single ⊢
      exact ⟨⟨single.1.1, writes.notMem foreign (by decide) single.1.2⟩, single.2⟩

theorem segments_writesOut {texts : List (List Char)}
    (writes : List.Forall₂ WritesLine (segments source.toList) texts) :
    segments (String.ofList (['\n'].intercalate texts)).toList = texts := by
  rw [String.toList_ofList]
  apply List.splitOn_intercalate
  · have single : ∀ line ∈ segments source.toList, '\n' ∉ line := fun _ =>
      notMem_of_mem_splitOn
    generalize segments source.toList = lines at writes single
    induction writes with
    | nil => exact List.forall_mem_nil _
    | cons first _ ih =>
        obtain ⟨here, later⟩ := List.forall_mem_cons.mp single
        exact List.forall_mem_cons.mpr ⟨first.notMem_newline here, ih later⟩
  · rintro rfl
    exact List.splitOn_ne_nil _ _ (List.forall₂_nil_right_iff.mp writes)

theorem agrees_contribution (writes : WritesOut source other) :
    (contribution Shorthand.resolve source).Agrees (contribution Shorthand.resolve other) := by
  obtain ⟨texts, writes, rfl⟩ := writes
  rw [contribution_eq_segments, contribution_eq_segments, segments_writesOut writes]
  exact Contribution.agrees_ofLines writes 1

/-! Any choice of tokens can be written out. -/

/-- The same name, with the token or its longhand. -/
def SpellsPair (styled other : String × String) : Prop :=
  other.1 = styled.1 ∧ Shorthand.Spells styled.2 other.2

theorem exists_map_eq {entity : String} {tokens : List String} {targets : List (String × String)}
    (spells : List.Forall₂ SpellsPair (tokens.map (entity, ·)) targets) :
    ∃ others, List.Forall₂ Shorthand.Spells tokens others ∧
      others.map (entity, ·) = targets := by
  induction tokens generalizing targets with
  | nil =>
      obtain rfl := List.forall₂_nil_left_iff.mp spells
      exact ⟨[], .nil, rfl⟩
  | cons token rest ih =>
      obtain ⟨⟨name, target⟩, later, ⟨rfl, first⟩, spellsLater, rfl⟩ :=
        List.forall₂_cons_left_iff.mp spells
      obtain ⟨others, spellsRest, rfl⟩ := ih spellsLater
      exact ⟨target :: others, .cons first spellsRest, rfl⟩

end Document

def Anchor.pairs (anchor : Anchor) : List (String × String) :=
  anchor.tokens.map (anchor.entity, ·)

/-- The style tokens of a trimmed line, each with the name that it styles. -/
def Line.pairs (text : List Char) : List (String × String) :=
  match Labelled.ofText? text with
  | some label => (Style.tokens label.after).map (String.ofList label.name, ·)
  | none => (Anchor.decompose text).1.flatMap Anchor.pairs

theorem Anchor.flatMap_styles (text : List Char) :
    ((styles text).flatMap fun (entity, tokens) => tokens.map (entity, ·)) =
      (decompose text).1.flatMap pairs := by
  rw [styles]
  induction (decompose text).1 with
  | nil => rfl
  | cons anchor rest ih =>
      rw [List.flatMap_cons, ← ih, pairs, List.map_cons]
      cases anchor.tokens with
      | nil => simp
      | cons token others => simp

theorem Anchor.exists_writesOut {anchor : Anchor} {targets : List (String × String)}
    (spells : List.Forall₂ Document.SpellsPair anchor.pairs targets) :
    ∃ other, WritesOut anchor other ∧ other.pairs = targets := by
  obtain ⟨others, spelled, rfl⟩ := Document.exists_map_eq spells
  obtain ⟨body, writes, written⟩ := Style.exists_writesOut spelled
  exact ⟨_, .body writes, congrArg (List.map (anchor.entity, ·)) written⟩

namespace Line

variable {text : List Char}

theorem pairs_ofSource (source : List Char) :
    ((ofSource source).styled.flatMap fun (entity, tokens) => tokens.map (entity, ·)) =
      pairs (trim source) := by
  have reads := reads_ofSource source
  generalize ofSource source = line at reads
  rw [pairs]
  cases reads with
  | blank empty =>
      have unlabelled : Labelled.find? true [] = none := rfl
      rw [empty, Anchor.decompose_of_none unlabelled]
      rfl
  | style _ labelled =>
      rw [labelled]
      exact List.append_nil _
  | layout _ unlabelled =>
      rw [unlabelled]
      exact Anchor.flatMap_styles (trim source)

theorem exists_writesOut {targets : List (String × String)}
    (spells : List.Forall₂ Document.SpellsPair (pairs text) targets) :
    ∃ other, WritesOut text other ∧ pairs other = targets := by
  rw [pairs] at spells
  cases labelled : Labelled.ofText? text with
  | some label =>
      rw [labelled] at spells
      obtain ⟨others, spelled, rfl⟩ := Document.exists_map_eq spells
      obtain ⟨body, writes, written⟩ := Style.exists_writesOut spelled
      have again := Labelled.ofText?_with_after labelled body
      refine ⟨_, .style labelled writes, ?_⟩
      rw [pairs, again]
      exact congrArg (List.map (String.ofList label.name, ·)) written
  | none =>
      rw [labelled] at spells
      obtain ⟨anchors, writes, written⟩ :=
        exists_forall₂_flatMap (fun _ _ _ => Anchor.exists_writesOut) spells
      refine ⟨_, .layout labelled writes, ?_⟩
      rw [pairs, ofText?_assemble labelled writes, Anchor.decompose_assemble writes]
      exact written

end Line

namespace Document

variable {source : String}

theorem exists_writesLine {line : List Char} {targets : List (String × String)}
    (spells : List.Forall₂ SpellsPair (Line.pairs (trim line)) targets) :
    ∃ other, WritesLine line other ∧ Line.pairs (trim other) = targets := by
  obtain ⟨trail, blankTrail, whole⟩ := exists_trim line
  obtain ⟨other, writes, written⟩ := Line.exists_writesOut spells
  have blankLead : ∀ c ∈ line.takeWhile isBlank, isBlank c := fun _ => List.mem_takeWhile_imp
  have unpadded : Unpadded (trim line) := trim_eq_self_iff.mp (trim_trim line)
  have around := WritesLine.around blankLead blankTrail unpadded writes
  rw [← whole] at around
  refine ⟨_, around, ?_⟩
  rw [trim_around blankLead blankTrail (writes.unpadded unpadded), written]

theorem styleTokens_eq_segments (source : String) :
    styleTokens source = (segments source.toList).flatMap (Line.pairs ∘ trim) := by
  obtain ⟨init, last, pieces, equal⟩ := exists_segments source.toList
  have returned : ∀ line, trim (dropReturn line) = trim line := by
    intro line
    obtain ⟨blanks, blank, whole⟩ := exists_dropReturn_append line
    rw [← trim_append blank, whole]
  rw [styleTokens, equal, pieces, List.flatMap_append, List.flatMap_append, List.flatMap_map]
  congr 1
  · apply List.flatMap_congr
    intro line _
    rw [Line.pairs_ofSource, returned]
    rfl
  · split
    next empty =>
      have nothing : Line.pairs (trim []) = [] := (Line.pairs_ofSource []).symm
      rw [empty, List.flatMap_singleton]
      exact nothing.symm
    next =>
      rw [List.flatMap_singleton, List.flatMap_singleton, Line.pairs_ofSource]
      rfl

/-- Every way to write out style tokens of a source can be had. -/
theorem exists_writesOut {targets : List (String × String)}
    (spells : List.Forall₂ SpellsPair (styleTokens source) targets) :
    ∃ other, WritesOut source other ∧ styleTokens other = targets := by
  rw [styleTokens_eq_segments] at spells
  obtain ⟨texts, writes, written⟩ :=
    exists_forall₂_flatMap (fun _ _ _ => exists_writesLine) spells
  refine ⟨_, ⟨texts, writes, rfl⟩, ?_⟩
  rw [styleTokens_eq_segments, segments_writesOut writes]
  exact written

theorem exists_longhand {front back : List (String × String)} {name token : String}
    {declaration : Declaration} (listed : styleTokens source = front ++ (name, token) :: back)
    (resolved : Shorthand.resolve token = some declaration) :
    ∃ other, WritesOut source other ∧
      styleTokens other = front ++ (name, declaration.longhand) :: back := by
  have same : ∀ pairs : List (String × String), List.Forall₂ SpellsPair pairs pairs := fun pairs =>
    List.forall₂_same.mpr fun pair _ => ⟨rfl, .same⟩
  apply exists_writesOut
  rw [listed]
  exact List.rel_append (same front) (.cons ⟨rfl, .longhand resolved⟩ (same back))

theorem expand_congr {document other : Document}
    (templates : other.templates = document.templates)
    (expressions : other.expressions = document.expressions) (roots : List String) :
    other.expand roots = document.expand roots := by
  rw [expand, expand, scenes, scenes, templates, expressions]

end Document

/-- Tokens written out leave all templates and nodes their styles, and all diagnostics. -/
theorem Compilation.eq_of_writesOut {source other : String}
    (writes : Document.WritesOut source other) (purpose : Purpose) (roots : List String) :
    let before := ofSource Shorthand.resolve purpose roots source
    let after := ofSource Shorthand.resolve purpose roots other
    after.document.templates = before.document.templates ∧
      after.expansion = before.expansion ∧ after.diagnostics = before.diagnostics := by
  intro before after
  obtain ⟨expressions, edits, diagnostics⟩ := Document.agrees_contribution writes
  have templates : after.document.templates = before.document.templates :=
    congrArg Registry.empty.applyAll edits
  have expansion : after.expansion = before.expansion :=
    Document.expand_congr templates expressions roots
  refine ⟨templates, expansion, ?_⟩
  exact congrArg₂ (· ++ ·) diagnostics (congrArg Expansion.diagnostics expansion)

/-- What a token stands for has a longhand of its own that stands for the same, whatever blanks
are around it. Writing out any such token of a source changes no styles. -/
theorem Shorthand.longhand_stable :
    (∀ token declaration, resolve token = some declaration →
      resolve (declaration.key ++ " " ++ declaration.value) = some declaration ∧
      declaration.value ≠ "" ∧
      (∀ c, declaration.value.toList.head? = some c → isBlank c = false) ∧
      (∀ c, declaration.value.toList.getLast? = some c → isBlank c = false) ∧
      declaration.key ≠ "" ∧ ∀ c ∈ declaration.key.toList, c.isAlpha ∨ c = '-') ∧
    (∀ lead token trail : String, (∀ c ∈ lead.toList, isBlank c) →
      (∀ c ∈ trail.toList, isBlank c) → resolve (lead ++ token ++ trail) = resolve token) ∧
    (∀ source front name token back declaration,
      Document.styleTokens source = front ++ (name, token) :: back →
      resolve token = some declaration →
      ∃ other, Document.WritesOut source other ∧ Document.styleTokens other =
        front ++ (name, declaration.key ++ " " ++ declaration.value) :: back) ∧
    ∀ source other, Document.WritesOut source other → ∀ purpose roots,
      let before := Compilation.ofSource resolve purpose roots source
      let after := Compilation.ofSource resolve purpose roots other
      after.document.templates = before.document.templates ∧
        after.expansion = before.expansion ∧ after.diagnostics = before.diagnostics := by
  refine ⟨?_, ?_, ?_, ?_⟩
  · intro token declaration resolved
    have isName := isName_key resolved
    have isValue := isValue_value resolved
    refine ⟨resolve_longhand isName isValue, ?_, isValue.unpadded.first, isValue.unpadded.last,
      ?_, ?_⟩
    · exact fun empty => isValue.nonempty (String.toList_eq_nil_iff.mpr empty)
    · exact fun empty => isName.nonempty (String.toList_eq_nil_iff.mpr empty)
    · intro c member
      have letter := isName.letters c member
      simpa [isPropertyChar] using letter
  · intro lead token trail blankLead blankTrail
    have around := resolve_around blankLead blankTrail token.toList
    rwa [String.ofList_append, String.ofList_append, String.ofList_toList, String.ofList_toList,
      String.ofList_toList] at around
  · intro source front name token back declaration listed resolved
    exact Document.exists_longhand listed resolved
  · intro source other writes purpose roots
    exact Compilation.eq_of_writesOut writes purpose roots

theorem Shorthand.longhand_stable_background :
    resolve "bg  red" = some ⟨"background-color", "red"⟩ ∧
      resolve "background-color red" = some ⟨"background-color", "red"⟩ ∧
      ∃ other, Document.styleTokens other = [("x", "background-color red")] ∧
        (Document.parse resolve other).templates =
          (Document.parse resolve "x: bg  red").templates := by
  obtain ⟨stable, -, writable, keeps⟩ := longhand_stable
  have resolved : resolve "bg  red" = some ⟨"background-color", "red"⟩ := by cbv
  have listed : Document.styleTokens "x: bg  red" = [("x", "bg  red")] := by cbv
  obtain ⟨other, writes, written⟩ :=
    writable "x: bg  red" [] "x" "bg  red" [] ⟨"background-color", "red"⟩ listed resolved
  refine ⟨resolved, (stable "bg  red" _ resolved).1, other, written, ?_⟩
  exact (keeps "x: bg  red" other writes .preview []).1

end Wireframe
