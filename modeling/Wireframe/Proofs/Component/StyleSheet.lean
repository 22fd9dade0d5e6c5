import Wireframe.Proofs.Component.Links
import Wireframe.Proofs.Document.Cutting
import Wireframe.Proofs.Document.Templates
import Wireframe.Proofs.Style.EndTag

/-! The style block of a file holds the declarations of a template as they are written, so a value
with an end tag ends the style element early. The last token for each property tells whether there
is one, and only style lines have such tokens, since the styles inside layout text end at a
slash. -/

namespace Wireframe

open Text

/-! The declarations of a style block are read off the text of a file. -/

namespace Component

/-- The lines of a file inside the block for a class. -/
def declarationLines (name content : String) : List (List Char) :=
  between ("." ++ name ++ " \x7b") "\x7d" (content.toList.splitOn '\n')

section Block

variable {framework : Framework} {template : Template}

/-- A line that can stand before the block without opening it. -/
def IsAhead (line : String) : Prop :=
  IsLine line ∧ line.toList.head? ≠ some '.'

theorem isAhead_markup (named : Named template) (depth : Nat) :
    ∀ line ∈ markup framework (depth + 1) template.content, IsAhead line := by
  intro line member
  obtain ⟨single, rest, split⟩ := forall_mem_markup named line member
  refine ⟨single, ?_⟩
  rw [← split]
  simp [Json.indent, List.replicate_succ, Nat.mul_add]

/-- A page and a component of markup end in the style block. -/
theorem exists_fileLines (sheet : framework ≠ .react) (named : Named template) :
    ∃ front, fileLines framework template =
        front ++ ("." ++ template.name ++ " \x7b") :: (rules template.styles ++ ["\x7d"]) ++
          ["</style>"] ∧
      ∀ line ∈ front, IsAhead line := by
  cases framework with
  | html =>
      refine ⟨["<section class=\"" ++ template.name ++ "\">"] ++ markup .html 1 template.content ++
        ["</section>", "", "<style>"], by simp [fileLines, htmlLines, styleBlock], ?_⟩
      simp only [List.mem_append, List.mem_cons, List.not_mem_nil, or_false]
      rintro line ((rfl | mark) | rfl | rfl | rfl)
      · refine ⟨?_, by simp⟩
        simp only [isLine_append]
        exact ⟨⟨by decide, isLine_of_isPlain named.name⟩, by decide⟩
      · exact isAhead_markup named 0 line mark
      · exact ⟨by decide, by decide⟩
      · exact ⟨by decide, by decide⟩
      · exact ⟨by decide, by decide⟩
  | vue =>
      refine ⟨["<script setup lang=\"ts\">"] ++ (dependencies template).map vueImport ++
        ["</script>", "", "<template>", "  <section class=\"" ++ template.name ++ "\">"] ++
        markup .vue 2 template.content ++ ["  </section>", "</template>", "", "<style scoped>"],
        by simp [fileLines, vueLines, styleBlock], ?_⟩
      simp only [List.mem_append, List.mem_cons, List.mem_map, List.not_mem_nil, or_false]
      rintro line ((((rfl | ⟨name, member, rfl⟩) | rfl | rfl | rfl | rfl) | mark) |
        rfl | rfl | rfl | rfl)
      · exact ⟨by decide, by decide⟩
      · exact ⟨isLine_vueImport (named.of_mem_dependencies member), by simp [vueImport]⟩
      · exact ⟨by decide, by decide⟩
      · exact ⟨by decide, by decide⟩
      · exact ⟨by decide, by decide⟩
      · exact ⟨isLine_vueSection named, by simp⟩
      · exact isAhead_markup named 1 line mark
      · exact ⟨by decide, by decide⟩
      · exact ⟨by decide, by decide⟩
      · exact ⟨by decide, by decide⟩
      · exact ⟨by decide, by decide⟩
  | react => exact absurd rfl sheet

theorem declarationLines_file (sheet : framework ≠ .react) (named : Named template)
    (single : ∀ line ∈ rules template.styles, IsLine line) :
    declarationLines template.name (file framework template).content =
      (rules template.styles).map String.toList := by
  obtain ⟨front, split, ahead⟩ := exists_fileLines sheet named
  have opened : ("." ++ template.name ++ " \x7b").toList.head? = some '.' := by simp
  apply between_content ⟨["</style>"], split.symm⟩
  · simp only [List.mem_append, List.mem_cons, List.not_mem_nil, or_false]
    rintro line (before | rfl | inside | rfl)
    · exact (ahead line before).1
    · simp only [isLine_append]
      exact ⟨⟨by decide, isLine_of_isPlain named.name⟩, by decide⟩
    · exact single line inside
    · decide
  · exact fun before => (ahead _ before).2 opened
  · rw [rules, List.mem_map]
    rintro ⟨declaration, -, same⟩
    have begins := congrArg (fun line => line.toList.head?) same
    simp at begins

end Block

end Component

/-! The styles of a template are what the last token for each property says. -/

theorem StyleMap.exists_get? {styles : StyleMap} {accept : Declaration → Prop} :
    (∃ declaration ∈ styles.declarations, accept declaration) ↔
      ∃ key value, styles.get? key = some value ∧ accept ⟨key, value⟩ := by
  constructor
  · rintro ⟨declaration, member, accepted⟩
    have distinct : (styles.declarations.map Declaration.key).Nodup :=
      List.pairwise_map.mpr (styles.sorted.imp fun less => String.ne_of_lt less)
    refine ⟨declaration.key, declaration.value, ?_, accepted⟩
    obtain ⟨found, first⟩ : ∃ found,
        styles.declarations.find? (·.key == declaration.key) = some found :=
      Option.isSome_iff_exists.mp (List.find?_isSome.mpr ⟨declaration, member, by simp⟩)
    have same : found = declaration := List.inj_on_of_nodup_map distinct
      (List.mem_of_find?_eq_some first) member (by simpa using List.find?_some first)
    rw [StyleMap.get?, first, same]
    rfl
  · rintro ⟨key, value, read, accepted⟩
    obtain ⟨found, first, rfl⟩ := Option.map_eq_some_iff.mp read
    have same : found.key = key := by simpa using List.find?_some first
    rw [← same] at accepted
    exact ⟨found, List.mem_of_find?_eq_some first, accepted⟩

namespace Document

/-- The style tokens of a source, in order, each with the name that it styles. -/
def styleTokens (source : String) : List (String × String) :=
  (lines source.toList).flatMap fun text =>
    (Line.ofSource text).styled.flatMap fun (entity, tokens) => tokens.map (entity, ·)

/-- The last token that sets a property of a name. -/
def lastToken? (source name key : String) : Option String :=
  ((styleTokens source).findRev? fun (owner, token) =>
    owner = name ∧ ∃ declaration ∈ Shorthand.resolve token, declaration.key = key).map Prod.snd

section Tokens

variable {source name key token : String} {template : Template}

theorem declarations_eq (source : String) :
    (numbered source).flatMap (fun pair => (Line.ofSource pair.1).declarations Shorthand.resolve) =
      (styleTokens source).filterMap fun (owner, token) =>
        (Shorthand.resolve token).map (owner, ·) := by
  have line : ∀ text, (Line.ofSource text).declarations Shorthand.resolve =
      ((Line.ofSource text).styled.flatMap fun (entity, tokens) =>
        tokens.map (entity, ·)).filterMap fun (owner, token) =>
          (Shorthand.resolve token).map (owner, ·) := by
    intro text
    rw [Line.declarations, List.filterMap_flatMap]
    apply List.flatMap_congr
    rintro ⟨entity, tokens⟩ -
    simp only [List.filterMap_map, List.map_filterMap]
    rfl
  have unnumbered : lines source.toList = (numbered source).map Prod.fst :=
    (List.zipIdx_map_fst 1 _).symm
  rw [styleTokens, List.filterMap_flatMap, unnumbered, List.flatMap_map]
  exact List.flatMap_congr fun pair _ => line pair.1

/-- A template has the value that the last token for the property stands for. -/
theorem get?_styles (member : template ∈ (parse Shorthand.resolve source).templates.templates) :
    template.styles.get? key =
      ((lastToken? source template.name key).bind Shorthand.resolve).map Declaration.value := by
  have summarizes := Registry.summarizes_empty.lines Shorthand.resolve (numbered source)
  rw [templates_parse] at member
  rw [summarizes.styles template member key, Record.value?, lastToken?]
  simp only [Record.empty, List.nil_append, declarations_eq, List.findRev?_eq_find?_reverse,
    ← List.filterMap_reverse, List.find?_filterMap]
  have sets : ∀ pair : String × String,
      ((Shorthand.resolve pair.2).map (pair.1, ·)).any (fun x =>
        decide (x.1 = template.name ∧ x.2.key = key)) =
      decide (pair.1 = template.name ∧
        ∃ declaration ∈ Shorthand.resolve pair.2, declaration.key = key) := by
    rintro ⟨owner, token⟩
    cases Shorthand.resolve token <;> simp
  simp only [sets]
  cases List.find? _ (styleTokens source).reverse with
  | none => rfl
  | some pair =>
      simp only [Option.bind_some, Option.map_some, Option.map_map]
      rfl

theorem mem_styleTokens_of_lastToken? (last : lastToken? source name key = some token) :
    (name, token) ∈ styleTokens source ∧
      ∃ declaration, Shorthand.resolve token = some declaration ∧ declaration.key = key := by
  obtain ⟨⟨owner, token⟩, found, rfl⟩ := Option.map_eq_some_iff.mp last
  rw [List.findRev?_eq_find?_reverse] at found
  have member := List.mem_reverse.mp (List.mem_of_find?_eq_some found)
  have accepted := List.find?_some found
  rw [decide_eq_true_iff] at accepted
  obtain ⟨rfl, declaration, resolved, sets⟩ := accepted
  exact ⟨member, declaration, Option.mem_def.mp resolved, sets⟩

theorem exists_token (member : template ∈ (parse Shorthand.resolve source).templates.templates)
    {value : String} : template.styles.get? key = some value ↔
      ∃ token, lastToken? source template.name key = some token ∧
        Shorthand.resolve token = some ⟨key, value⟩ := by
  rw [get?_styles member, Option.map_eq_some_iff]
  constructor
  · rintro ⟨declaration, bound, rfl⟩
    obtain ⟨token, last, resolved⟩ := Option.bind_eq_some_iff.mp bound
    obtain ⟨-, other, same, rfl⟩ := mem_styleTokens_of_lastToken? last
    obtain rfl := Option.some.inj (same.symm.trans resolved)
    exact ⟨token, last, resolved⟩
  · rintro ⟨token, last, resolved⟩
    exact ⟨_, Option.bind_eq_some_iff.mpr ⟨token, last, resolved⟩, rfl⟩

theorem exists_declaration
    (member : template ∈ (parse Shorthand.resolve source).templates.templates)
    {accept : Declaration → Prop} :
    (∃ declaration ∈ template.styles.declarations, accept declaration) ↔
      ∃ key token declaration, lastToken? source template.name key = some token ∧
        Shorthand.resolve token = some declaration ∧ accept declaration := by
  rw [StyleMap.exists_get?]
  constructor
  · rintro ⟨key, value, read, accepted⟩
    obtain ⟨token, last, resolved⟩ := (exists_token member).mp read
    exact ⟨key, token, _, last, resolved, accepted⟩
  · rintro ⟨key, token, declaration, last, resolved, accepted⟩
    obtain ⟨-, other, same, rfl⟩ := mem_styleTokens_of_lastToken? last
    obtain rfl := Option.some.inj (same.symm.trans resolved)
    exact ⟨_, _, (exists_token member).mpr ⟨token, last, resolved⟩, accepted⟩

theorem closesStyle_of_mem_tokens {body : List Char} (listed : token ∈ Style.tokens body)
    (closes : ClosesStyle token.toList) : ClosesStyle body := by
  obtain ⟨kept, inside, rfl⟩ := List.mem_map.mp listed
  obtain ⟨piece, split, rfl⟩ := List.mem_map.mp (List.mem_of_mem_filter inside)
  rw [String.toList_ofList, closesStyle_trim] at closes
  have outside : ∀ c, (c == ';') = true → c.toLower ∉ "</style".toList := by
    intro c same
    rw [beq_iff_eq.mp same]
    decide
  exact (closesStyle_iff_splitOnP outside).mpr ⟨piece, split, closes⟩

/-- A token that ends the style element stands on a style line for its name. -/
theorem exists_style_line (member : (name, token) ∈ styleTokens source)
    (closes : ClosesStyle token.toList) :
    ∃ text ∈ lines source.toList, ∃ label, Labelled.ofText? (trim text) = some label ∧
      String.ofList label.name = name ∧ ClosesStyle label.after := by
  obtain ⟨text, inSource, inLine⟩ := List.mem_flatMap.mp member
  obtain ⟨⟨entity, tokens⟩, styled, listed⟩ := List.mem_flatMap.mp inLine
  obtain ⟨_, inTokens, same⟩ := List.mem_map.mp listed
  obtain ⟨rfl, rfl⟩ := Prod.mk.inj same
  refine ⟨text, inSource, ?_⟩
  generalize reading : Line.ofSource text = line at styled
  have reads := Line.reads_ofSource text
  rw [reading] at reads
  cases reads with
  | blank empty => cases styled
  | @style label nonblank labelled =>
      obtain ⟨rfl, rfl⟩ := Prod.mk.inj (List.mem_singleton.mp styled)
      exact ⟨label, labelled, rfl, closesStyle_of_mem_tokens inTokens closes⟩
  | layout nonblank unlabelled =>
      -- the styles of an anchor end at the slash that the end tag has
      obtain ⟨anchor, inText, pair⟩ := List.mem_map.mp (List.mem_of_mem_filter styled)
      obtain ⟨rfl, rfl⟩ := Prod.mk.inj pair
      have within := closesStyle_of_mem_tokens inTokens closes
      have slash : '/' ∈ anchor.body := mem_of_closesStyle within (by decide) rfl
      have delimited := (Anchor.cuts_decompose (trim text)).undelimited anchor inText '/' slash
      cases delimited

end Tokens

end Document

namespace Component

variable {template : Template} {source : String}

theorem isLine_rules
    (member : template ∈ (Document.parse Shorthand.resolve source).templates.templates) :
    ∀ line ∈ rules template.styles, IsLine line := by
  have single : ∀ declaration ∈ template.styles.declarations,
      IsLine declaration.key ∧ IsLine declaration.value := by
    intro declaration declared
    have listed : ∃ other ∈ template.styles.declarations, other = declaration :=
      ⟨declaration, declared, rfl⟩
    obtain ⟨key, token, _, last, resolved, rfl⟩ := (Document.exists_declaration member).mp listed
    exact ⟨Shorthand.notMem_key resolved rfl, Shorthand.isLine_value resolved⟩
  intro line inRules
  obtain ⟨declaration, declared, rfl⟩ := List.mem_map.mp inRules
  obtain ⟨key, value⟩ := single declaration declared
  simp only [isLine_append]
  exact ⟨⟨⟨⟨by decide, key⟩, by decide⟩, value⟩, by decide⟩

/-- A declaration ends the style element where its value does. -/
theorem closesStyle_rule {token : String} {declaration : Declaration}
    (resolved : Shorthand.resolve token = some declaration) :
    ClosesStyle ("  " ++ declaration.key ++ ": " ++ declaration.value ++ ";").toList ↔
      ClosesStyle declaration.value.toList := by
  have chars : ("  " ++ declaration.key ++ ": " ++ declaration.value ++ ";").toList =
      ("  ".toList ++ declaration.key.toList ++ [':']) ++
        ' ' :: (declaration.value.toList ++ ';' :: []) := by simp
  have plain : ¬ ClosesStyle ("  ".toList ++ declaration.key.toList ++ [':']) := by
    have absent : '<' ∉ declaration.key.toList := Shorthand.notMem_key resolved rfl
    apply not_closesStyle_of_notMem
    simp [absent]
  rw [chars, closesStyle_append_cons (by decide), or_iff_right plain,
    closesStyle_append_cons (by decide), or_iff_left not_closesStyle_nil]

end Component

/-- The block of a template holds its declarations as they are written. One of them ends the style
element exactly if the last token for some property of the template does and does not begin with
a class, and then a style line for the template has an end tag. -/
theorem Compilation.style_block_closes_iff (purpose : Purpose) (roots : List String)
    (source : String) (framework : Framework) (sheet : framework ≠ .react) :
    ∀ template ∈ (ofSource Shorthand.resolve purpose roots source).document.templates.templates,
      let lines := Component.declarationLines template.name
        (Component.file framework template).content
      lines = (Component.rules template.styles).map String.toList ∧
      ((∃ line ∈ lines, ClosesStyle line) ↔
        ∃ key token, Document.lastToken? source template.name key = some token ∧
          ClosesStyle token.toList ∧ ¬ Shorthand.NamesClass token) ∧
      ((∃ line ∈ lines, ClosesStyle line) →
        ∃ text ∈ Text.lines source.toList, ∃ label, Labelled.ofText? (trim text) = some label ∧
          String.ofList label.name = template.name ∧ ClosesStyle label.after) := by
  intro template member lines
  have read : lines = (Component.rules template.styles).map String.toList :=
    Component.declarationLines_file sheet (Document.named_of_mem_templates member)
      (Component.isLine_rules member)
  have written : (∃ line ∈ lines, ClosesStyle line) ↔
      ∃ declaration ∈ template.styles.declarations, ClosesStyle
        ("  " ++ declaration.key ++ ": " ++ declaration.value ++ ";").toList := by
    rw [read, Component.rules, List.map_map]
    simp only [List.mem_map, Function.comp_apply]
    constructor
    · rintro ⟨_, ⟨declaration, declared, rfl⟩, closes⟩
      exact ⟨declaration, declared, closes⟩
    · rintro ⟨declaration, declared, closes⟩
      exact ⟨_, ⟨declaration, declared, rfl⟩, closes⟩
  have tokens : (∃ line ∈ lines, ClosesStyle line) ↔
      ∃ key token, Document.lastToken? source template.name key = some token ∧
        ClosesStyle token.toList ∧ ¬ Shorthand.NamesClass token := by
    rw [written, Document.exists_declaration member]
    constructor
    · rintro ⟨key, token, declaration, last, resolved, closes⟩
      rw [Component.closesStyle_rule resolved, Shorthand.closesStyle_value_iff resolved] at closes
      exact ⟨key, token, last, closes⟩
    · rintro ⟨key, token, last, closes⟩
      obtain ⟨-, declaration, resolved, -⟩ := Document.mem_styleTokens_of_lastToken? last
      rw [← Shorthand.closesStyle_value_iff resolved, ← Component.closesStyle_rule resolved]
        at closes
      exact ⟨key, token, declaration, last, resolved, closes⟩
  refine ⟨read, tokens, ?_⟩
  intro closes
  obtain ⟨key, token, last, closes, -⟩ := tokens.mp closes
  exact Document.exists_style_line (Document.mem_styleTokens_of_lastToken? last).1 closes

/-! A template with an end tag for a background. -/

section Early

theorem Line.ofSource_end_tag :
    Line.ofSource "x: bg </style>".toList = .style "x" ["bg </style>"] := by cbv

theorem Shorthand.resolve_end_tag :
    resolve "bg </style>" = some ⟨"background-color", "</style>"⟩ := by cbv

theorem Document.mem_templates_end_tag :
    ⟨"x", 1, .ofList [⟨"background-color", "</style>"⟩], none⟩ ∈
      (parse Shorthand.resolve "x: bg </style>").templates.templates := by
  have inSource : numbered "x: bg </style>" = [("x: bg </style>".toList, 1)] := by decide
  have styled : (Line.style "x" ["bg </style>"]).edits Shorthand.resolve 1 =
      [.sight "x" 1, .style "x" 1 ⟨"background-color", "</style>"⟩] := by
    simp [Line.edits, Line.styled, Line.expression?, Shorthand.resolve_end_tag]
  rw [templates_parse, inSource, List.flatMap_singleton, Line.ofSource_end_tag, styled]
  exact List.mem_cons_self

/-- The end tag stands in the block of the page. -/
theorem Compilation.style_block_ended_early :
    let registry := (ofSource Shorthand.resolve .generate [] "x: bg </style>").document.templates
    ∃ template ∈ registry.templates,
      ∃ line ∈ Component.declarationLines template.name (Component.file .html template).content,
        ClosesStyle line := by
  intro registry
  have member : _ ∈ registry.templates := Document.mem_templates_end_tag
  have page : Framework.html ≠ .react := nofun
  refine ⟨_, member, "  background-color: </style>;".toList, ?_, by decide⟩
  rw [Component.declarationLines_file page (Document.named_of_mem_templates member)
    (Component.isLine_rules member)]
  decide

/-- It stands in that of the component, since it does in the last token for the background. -/
theorem Compilation.style_block_closes_background :
    let registry := (ofSource Shorthand.resolve .generate [] "x: bg </style>").document.templates
    Framework.vue ≠ .react ∧ ∃ template ∈ registry.templates,
      ∃ line ∈ Component.declarationLines template.name (Component.file .vue template).content,
        ClosesStyle line := by
  intro registry
  have member : _ ∈ registry.templates := Document.mem_templates_end_tag
  have tokens : Document.styleTokens "x: bg </style>" = [("x", "bg </style>")] := by
    have inSource : Text.lines "x: bg </style>".toList = ["x: bg </style>".toList] := by decide
    rw [Document.styleTokens, inSource, List.flatMap_singleton, Line.ofSource_end_tag]
    rfl
  have last : Document.lastToken? "x: bg </style>" "x" "background-color" =
      some "bg </style>" := by
    simp [Document.lastToken?, tokens, Shorthand.resolve_end_tag]
  obtain ⟨-, closes, -⟩ :=
    style_block_closes_iff .generate [] "x: bg </style>" .vue nofun _ member
  exact ⟨nofun, _, member, closes.mpr ⟨_, _, last, by decide, by decide⟩⟩

end Early

end Wireframe
