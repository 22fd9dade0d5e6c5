import Wireframe.Proofs.Component.Bindings

/-! Components link. The tags of the markup are those of the names that the content refers to,
so that each is imported or is the component's own, and since every name that is referred to
has a template, every import leads to a file of the same output. -/

namespace Wireframe

namespace Component

/-- Where a reader of markup stands: outside of strings, in one, or in one after a backslash. -/
inductive Reading
  | markup
  | string
  | escape
  deriving DecidableEq

/-- The name of the tag that begins before a text. -/
def tagAt (text : List Char) : String :=
  String.ofList ((text.dropWhile (· = '/')).takeWhile Name.isTail)

/-- The names of the tags in a line, wherever they stand but in strings. -/
def tagNames : Reading → List Char → List String
  | _, [] => []
  | .markup, '"' :: rest => tagNames .string rest
  | .markup, '<' :: rest => tagAt rest :: tagNames .markup rest
  | .markup, _ :: rest => tagNames .markup rest
  | .string, '"' :: rest => tagNames .markup rest
  | .string, '\\' :: rest => tagNames .escape rest
  | .string, _ :: rest => tagNames .string rest
  | .escape, _ :: rest => tagNames .string rest

/-- The lines of a file that stand in its markup: in the template or in what is returned. The
tags of a page stand for no components. -/
def markupLines : Framework → List (List Char) → List (List Char)
  | .html, _ => []
  | .vue, lines => between "<template>" "</template>" lines
  | .react, lines => between "  return (" "  );" lines

/-- The names of the tags of a file that stand for components. -/
def componentTags (framework : Framework) (content : String) : List String :=
  ((markupLines framework (content.toList.splitOn '\n')).flatMap (tagNames .markup)).filter
    (· ∉ ["div", "section"])

/-! Each line of the markup has the one tag that it was written with. -/

section Reading

theorem tagNames_append {front : List Char} (plain : ∀ c ∈ front, c ≠ '"' ∧ c ≠ '<')
    (rest : List Char) : tagNames .markup (front ++ rest) = tagNames .markup rest := by
  induction front with
  | nil => rfl
  | cons c front ih =>
      obtain ⟨notQuote, notTag⟩ := plain c List.mem_cons_self
      have later := ih fun c member => plain c (List.mem_cons_of_mem _ member)
      rw [List.cons_append, tagNames, later]
      · exact notQuote
      · exact notTag

theorem tagNames_plain {chars : List Char} (plain : ∀ c ∈ chars, c ≠ '"' ∧ c ≠ '<') :
    tagNames .markup chars = [] := by
  have alone := tagNames_append plain []
  rwa [List.append_nil] at alone

theorem tagNames_string_append {inside : List Char} (plain : ∀ c ∈ inside, c ≠ '"' ∧ c ≠ '\\')
    (rest : List Char) : tagNames .string (inside ++ rest) = tagNames .string rest := by
  induction inside with
  | nil => rfl
  | cons c inside ih =>
      obtain ⟨notQuote, notEscape⟩ := plain c List.mem_cons_self
      have later := ih fun c member => plain c (List.mem_cons_of_mem _ member)
      rw [List.cons_append, tagNames, later]
      · exact notQuote
      · exact notEscape

theorem tagNames_escapeChar (c : Char) (rest : List Char) :
    tagNames .string (Json.escapeChar c ++ rest) = tagNames .string rest := by
  have digit : ∀ value : Fin 16, Json.hexDigit value ≠ '"' ∧ Json.hexDigit value ≠ '\\' := by decide
  unfold Json.escapeChar
  split
  -- a backslash and the sign after it, which is skipped even if it is a quote
  case h_1 | h_2 | h_3 | h_4 | h_5 | h_6 | h_7 => rfl
  case h_8 notQuote notEscape _ _ _ _ _ =>
    split
    next control =>
      have high := digit ⟨c.toNat / 16, by omega⟩
      have low := digit ⟨c.toNat % 16, by omega⟩
      have plain : ∀ code ∈ ['0', '0', Json.hexDigit (c.toNat / 16), Json.hexDigit (c.toNat % 16)],
          code ≠ '"' ∧ code ≠ '\\' := by simp [high, low]
      exact tagNames_string_append plain rest
    next => exact tagNames_string_append (by simpa using ⟨notQuote, notEscape⟩) rest

/-- Nothing in a string is a tag, and the string ends where its quotes do. -/
theorem tagNames_quote (text : String) (rest : List Char) :
    tagNames .markup ((Json.quote text).toList ++ rest) = tagNames .markup rest := by
  have inside : ∀ chars : List Char,
      tagNames .string (chars.flatMap Json.escapeChar ++ '"' :: rest) = tagNames .markup rest := by
    intro chars
    induction chars with
    | nil => rfl
    | cons c chars ih => rw [List.flatMap_cons, List.append_assoc, tagNames_escapeChar, ih]
  rw [Json.quote, String.toList_ofList, List.cons_append, List.append_assoc]
  exact inside text.toList

variable {name : String}

theorem tagAt_append (plain : Name.IsPlain name) {c : Char} (ends : Name.isTail c = false)
    (rest : List Char) : tagAt (name.toList ++ c :: rest) = name := by
  obtain ⟨head, tail, named, isHead, isTail⟩ := plain
  have noSlash : ¬ (head == '/') = true := by
    rw [beq_iff_eq]
    rintro rfl
    cases isHead
  have letters : ∀ c ∈ name.toList, Name.isTail c = true := by
    rw [named, List.forall_mem_cons]
    exact ⟨Name.isTail_of_isHead isHead, isTail⟩
  have undropped : (name.toList ++ c :: rest).dropWhile (· = '/') = name.toList ++ c :: rest := by
    rw [named, List.cons_append]
    exact List.dropWhile_cons_of_neg noSlash
  rw [tagAt, undropped, List.takeWhile_append_of_pos letters,
    List.takeWhile_cons_of_neg (by simp [ends]), List.append_nil, String.ofList_toList]

theorem tagNames_name (plain : Name.IsPlain name) (rest : List Char) :
    tagNames .markup (name.toList ++ rest) = tagNames .markup rest := by
  apply tagNames_append
  intro c member
  exact ⟨ne_of_mem_of_not_mem member (plain.not_mem rfl),
    ne_of_mem_of_not_mem member (plain.not_mem rfl)⟩

theorem tagNames_named (plain : Name.IsPlain name) {c : Char} (ends : Name.isTail c = false)
    (rest : List Char) :
    tagNames .markup ('<' :: (name.toList ++ c :: rest)) =
      name :: tagNames .markup (c :: rest) := by
  rw [tagNames, tagAt_append plain ends, tagNames_name plain]

theorem tagNames_stop (plain : Name.IsPlain name) :
    tagNames .markup ('<' :: '/' :: (name.toList ++ ['>'])) = [name] := by
  have unslashed : tagAt ('/' :: (name.toList ++ ['>'])) = tagAt (name.toList ++ ['>']) := by
    rw [tagAt, tagAt, List.dropWhile_cons_of_pos (by decide)]
  have closed : tagNames .markup ['>'] = [] := tagNames_plain (by simp)
  have slash : ∀ c ∈ ['/'], c ≠ '"' ∧ c ≠ '<' := by simp
  have skipped := tagNames_append slash (name.toList ++ ['>'])
  rw [List.singleton_append, tagNames_name plain, closed] at skipped
  rw [tagNames, unslashed, tagAt_append plain rfl, skipped]

theorem isPlain_div : Name.IsPlain "div" :=
  ⟨'d', ['i', 'v'], by simp, rfl, by simp [Name.isTail]⟩

theorem isPlain_section : Name.IsPlain "section" :=
  ⟨'s', ['e', 'c', 't', 'i', 'o', 'n'], by simp, rfl, by simp [Name.isTail]⟩

theorem tagNames_group (framework : Framework) (direction : Direction) :
    tagNames .markup ((Tag.startGroup direction).print framework).toList = ["div"] := by
  cases framework with
  | html | vue | react => cases direction with
    | row | column => decide +kernel

theorem print_empty (framework : Framework) (name : String) :
    (Tag.empty name).print framework = "<" ++ tagName framework name ++ " />" := rfl

theorem print_start (framework : Framework) (name : String) :
    (Tag.start name).print framework = "<" ++ tagName framework name ++ ">" := rfl

theorem print_stop (framework : Framework) (name : String) :
    (Tag.stop name).print framework = "</" ++ tagName framework name ++ ">" := rfl

theorem tagNames_tag {framework : Framework} {tag : Tag}
    (plain : ∀ name, tag.name? = some name → Name.IsPlain name) :
    tagNames .markup (tag.print framework).toList =
      [tag.name?.elim "div" (tagName framework)] := by
  cases tag with
  | empty name =>
      have written := isPlain_tagName framework (plain name rfl)
      have chars : ("<" ++ tagName framework name ++ " />").toList =
          '<' :: ((tagName framework name).toList ++ [' ', '/', '>']) := by simp
      have closed : tagNames .markup [' ', '/', '>'] = [] := tagNames_plain (by simp)
      rw [print_empty, chars, tagNames_named written rfl, closed, Tag.name?, Option.elim_some]
  | start name =>
      have written := isPlain_tagName framework (plain name rfl)
      have chars : ("<" ++ tagName framework name ++ ">").toList =
          '<' :: ((tagName framework name).toList ++ ['>']) := by simp
      have closed : tagNames .markup ['>'] = [] := tagNames_plain (by simp)
      rw [print_start, chars, tagNames_named written rfl, closed, Tag.name?, Option.elim_some]
  | stop name =>
      have written := isPlain_tagName framework (plain name rfl)
      have chars : ("</" ++ tagName framework name ++ ">").toList =
          '<' :: '/' :: ((tagName framework name).toList ++ ['>']) := by simp
      rw [print_stop, chars, tagNames_stop written, Tag.name?, Option.elim_some]
  | startGroup direction => exact tagNames_group framework direction
  | stopGroup =>
      have chars : "</div>".toList = '<' :: '/' :: ("div".toList ++ ['>']) := by simp
      have closed : tagNames .markup "</div>".toList = ["div"] := by
        rw [chars, tagNames_stop isPlain_div]
      exact closed

theorem tagNames_print {framework : Framework} {line : Line}
    (plain : ∀ name, line.tag.name? = some name → Name.IsPlain name) :
    tagNames .markup (line.print framework).toList =
      [line.tag.name?.elim "div" (tagName framework)] := by
  have blanks : ∀ c ∈ (Json.indent line.depth).toList, c ≠ '"' ∧ c ≠ '<' := by
    simp [Json.indent]
  rw [Line.print, String.toList_append, tagNames_append blanks, tagNames_tag plain]

end Reading

/-! The markup of a file is a section around the tags of the content. -/

section Section

variable {template : Template}

theorem mem_markup_tags {framework : Framework} (named : Named template) (depth : Nat)
    {tag : String} :
    tag ∈ (markup framework depth template.content).flatMap (fun line =>
        tagNames .markup line.toList) ↔
      ∃ line ∈ template.content.elim [] (lines depth),
        line.tag.name?.elim "div" (tagName framework) = tag := by
  have written : ∀ line ∈ template.content.elim [] (lines depth),
      tagNames .markup (line.print framework).toList =
        [line.tag.name?.elim "div" (tagName framework)] := fun line member =>
    tagNames_print fun name => named.of_mem_lines member
  rw [markup, List.flatMap_map, List.flatMap_congr written, List.mem_flatMap]
  simp only [List.mem_singleton, eq_comm]

theorem capitalize_notMem {name : String} (plain : Name.IsPlain name) :
    capitalize name ∉ ["div", "section"] := by
  obtain ⟨head, tail, named, isHead, -⟩ := plain
  have begins := toList_capitalize named isHead
  have capital := Char.isLower_toUpper_eq_false head
  simp only [List.mem_cons, List.not_mem_nil, or_false, ← String.toList_inj, begins]
  rintro (same | same)
  · rw [(List.cons.inj same).1] at capital
    cases capital
  · rw [(List.cons.inj same).1] at capital
    cases capital

theorem tagName_of_component {framework : Framework} (component : framework ≠ .html)
    (name : String) : tagName framework name = capitalize name := by
  cases framework with
  | html => exact absurd rfl component
  | vue | react => rfl

theorem mem_component_tags {framework : Framework} (component : framework ≠ .html)
    (named : Named template) (depth : Nat) {tag : String} :
    (tag ∈ (markup framework depth template.content).flatMap (fun line =>
        tagNames .markup line.toList) ∧ tag ∉ ["div", "section"]) ↔
      ∃ name ∈ uses template, capitalize name = tag := by
  rw [mem_markup_tags named depth]
  constructor
  · rintro ⟨⟨line, member, rfl⟩, notPlain⟩
    cases written : line.tag.name? with
    | none =>
        rw [written] at notPlain
        exact absurd List.mem_cons_self notPlain
    | some name =>
        exact ⟨name, (mem_uses_iff depth).mpr ⟨line, member, written⟩,
          (tagName_of_component component name).symm⟩
  · rintro ⟨name, used, rfl⟩
    obtain ⟨line, member, written⟩ := (mem_uses_iff depth).mp used
    refine ⟨⟨line, member, ?_⟩, capitalize_notMem (named.uses name used)⟩
    rw [written]
    exact tagName_of_component component name

def rootLines : Framework → Template → List String
  | .html, _ => []
  | .vue, template =>
      ["  <section class=\"" ++ template.name ++ "\">"] ++ markup .vue 2 template.content ++
        ["  </section>"]
  | .react, template => returned template

theorem isLine_vueSection (named : Named template) :
    IsLine ("  <section class=\"" ++ template.name ++ "\">") := by
  simp only [isLine_append]
  exact ⟨⟨by decide, isLine_of_isPlain named.name⟩, by decide⟩

theorem forall_mem_rootLines_vue (named : Named template) :
    ∀ line ∈ rootLines .vue template, IsLine line ∧ Indented 1 line := by
  have marked : ∀ line ∈ markup .vue 2 template.content, IsLine line ∧ Indented 1 line := by
    intro line member
    obtain ⟨single, deep⟩ := forall_mem_markup named line member
    exact ⟨single, deep.mono (by decide)⟩
  have opened : Indented 1 ("  <section class=\"" ++ template.name ++ "\">") := by
    simp [Indented, Json.indent]
  simp only [rootLines, List.mem_append, List.mem_singleton]
  rintro line ((rfl | mark) | rfl)
  · exact ⟨isLine_vueSection named, opened⟩
  · exact marked line mark
  · decide

theorem notMem_imports {write : String → String} {opener : String}
    (begins : ∀ name, (write name).toList.head? = some 'i')
    (different : opener.toList.head? ≠ some 'i') :
    opener ∉ (dependencies template).map write := by
  rw [List.mem_map]
  rintro ⟨name, -, rfl⟩
  exact different (begins name)

theorem markupLines_vue (named : Named template) :
    markupLines .vue ((file .vue template).content.toList.splitOn '\n') =
      (rootLines .vue template).map String.toList := by
  let front := "<script setup lang=\"ts\">" ::
    ((dependencies template).map vueImport ++ ["</script>", ""])
  have begins : front ++ "<template>" :: (rootLines .vue template ++ ["</template>"]) <+:
      fileLines .vue template := by
    simp [front, fileLines, vueLines, rootLines]
  have single : ∀ line ∈ front ++ "<template>" :: (rootLines .vue template ++ ["</template>"]),
      IsLine line := by
    simp only [front, List.mem_append, List.mem_cons, List.mem_map, List.not_mem_nil, or_false]
    rintro line ((rfl | ⟨name, member, rfl⟩ | rfl | rfl) | rfl | root | rfl)
    · decide
    · exact isLine_vueImport (named.of_mem_dependencies member)
    · decide
    · decide
    · decide
    · exact (forall_mem_rootLines_vue named line root).1
    · decide
  have unopened : "<template>" ∉ front := by
    have imports : "<template>" ∉ (dependencies template).map vueImport :=
      notMem_imports (by simp [vueImport]) (by simp)
    simp [front, imports]
  have unclosed : "</template>" ∉ rootLines .vue template := fun member =>
    absurd (forall_mem_rootLines_vue named _ member).2 (by decide)
  exact between_content begins single unopened unclosed

theorem markupLines_react (named : Named template) :
    markupLines .react ((file .react template).content.toList.splitOn '\n') =
      (rootLines .react template).map String.toList := by
  let front := "import React from 'react';" :: ((dependencies template).map reactImport ++
    ["", "export function " ++ capitalize template.name ++ "() \x7b"])
  have begins : front ++ "  return (" :: (rootLines .react template ++ ["  );"]) <+:
      fileLines .react template := by
    simp [front, fileLines, reactLines_eq, rootLines]
  have single : ∀ line ∈ front ++ "  return (" :: (rootLines .react template ++ ["  );"]),
      IsLine line := fun line member =>
    forall_mem_reactLines named line (begins.subset member)
  have unopened : "  return (" ∉ front := by
    have imports : "  return (" ∉ (dependencies template).map reactImport :=
      notMem_imports (by simp [reactImport]) (by simp)
    have header : "  return (" ≠ "export function " ++ capitalize template.name ++ "() \x7b" := by
      rw [ne_eq, ← String.toList_inj]
      simp
    simp [front, imports, header]
  have unclosed : "  );" ∉ rootLines .react template := fun member =>
    absurd (forall_mem_returned named _ member).2 (by decide)
  exact between_content begins single unopened unclosed

theorem tagNames_vueSection (named : Named template) :
    tagNames .markup ("  <section class=\"" ++ template.name ++ "\">").toList = ["section"] := by
  have chars : ("  <section class=\"" ++ template.name ++ "\">").toList =
      "  ".toList ++ '<' :: ("section".toList ++ ' ' :: ("class=".toList ++
        '"' :: (template.name.toList ++ ['"', '>']))) := by simp
  have quoted : tagNames .string (template.name.toList ++ ['"', '>']) = [] := by
    rw [tagNames_string_append]
    · exact tagNames_plain (by simp)
    · intro c member
      exact ⟨ne_of_mem_of_not_mem member (named.name.not_mem rfl),
        ne_of_mem_of_not_mem member (named.name.not_mem rfl)⟩
  have value : tagNames .markup (' ' :: ("class=".toList ++
      '"' :: (template.name.toList ++ ['"', '>']))) = [] := by
    rw [← List.cons_append, tagNames_append (by simp), tagNames, quoted]
  rw [chars, tagNames_append (by simp), tagNames_named isPlain_section rfl, value]

theorem tagNames_sectionEnd (depth : Nat) :
    tagNames .markup (Json.indent depth ++ "</section>").toList = ["section"] := by
  have chars : (Json.indent depth ++ "</section>").toList =
      (Json.indent depth).toList ++ '<' :: '/' :: ("section".toList ++ ['>']) := by simp
  rw [chars, tagNames_append (by simp [Json.indent]), tagNames_stop isPlain_section]

theorem tagNames_reactStyle (declaration : Declaration) (rest : List Char) :
    tagNames .markup ((reactStyle declaration).toList ++ rest) = tagNames .markup rest := by
  rw [reactStyle, String.toList_append, String.toList_append, String.toList_append,
    List.append_assoc, List.append_assoc, List.append_assoc, tagNames_append (by simp),
    tagNames_quote, tagNames_append (by simp), tagNames_quote]

theorem tagNames_reactStyles (declarations : List Declaration) :
    ∀ line ∈ reactStyles declarations, tagNames .markup line.toList = [] := by
  intro line member
  obtain ⟨declaration, rfl | rfl⟩ := mem_reactStyles member
  · rw [← List.append_nil (reactStyle declaration).toList, tagNames_reactStyle]
    rfl
  · rw [String.toList_append, tagNames_reactStyle]
    rfl

theorem mem_rootLines_tags {framework : Framework} (component : framework ≠ .html)
    (named : Named template) {tag : String} :
    (tag ∈ (rootLines framework template).flatMap (fun line => tagNames .markup line.toList) ∧
        tag ∉ ["div", "section"]) ↔
      ∃ name ∈ uses template, capitalize name = tag := by
  cases framework with
  | html => exact absurd rfl component
  | vue =>
      have closer : tagNames .markup "  </section>".toList = ["section"] := tagNames_sectionEnd 1
      rw [rootLines, List.flatMap_append, List.flatMap_append, List.flatMap_singleton,
        List.flatMap_singleton, tagNames_vueSection named, closer,
        ← mem_component_tags component named 2]
      simp only [List.mem_append, List.mem_cons, List.not_mem_nil, or_false]
      tauto
  | react =>
      have opener : tagNames .markup "    <section style=\x7b\x7b".toList = ["section"] := by
        have chars : "    <section style=\x7b\x7b".toList =
            "    ".toList ++ '<' :: ("section".toList ++ ' ' :: "style=\x7b\x7b".toList) := by simp
        rw [chars, tagNames_append (by simp), tagNames_named isPlain_section rfl,
          tagNames_plain (by simp)]
      have styles : (reactStyles template.styles.declarations).flatMap
          (fun line => tagNames .markup line.toList) = [] :=
        List.flatMap_eq_nil_iff.mpr (tagNames_reactStyles _)
      have opened : tagNames .markup "    \x7d\x7d>".toList = [] := tagNames_plain (by simp)
      have closer : tagNames .markup "    </section>".toList = ["section"] := tagNames_sectionEnd 2
      rw [rootLines, returned, List.flatMap_append, List.flatMap_append, List.flatMap_append,
        List.flatMap_append, List.flatMap_singleton, List.flatMap_singleton,
        List.flatMap_singleton, opener, styles, opened, closer,
        ← mem_component_tags component named 3]
      simp only [List.mem_append, List.mem_cons, List.not_mem_nil, or_false]
      tauto

/-- The components in the markup of a file are those that the content refers to. -/
theorem mem_componentTags_iff {framework : Framework} (component : framework ≠ .html)
    (named : Named template) {tag : String} :
    tag ∈ componentTags framework (file framework template).content ↔
      ∃ name ∈ uses template, capitalize name = tag := by
  have lines : markupLines framework ((file framework template).content.toList.splitOn '\n') =
      (rootLines framework template).map String.toList := by
    cases framework with
    | html => exact absurd rfl component
    | vue => exact markupLines_vue named
    | react => exact markupLines_react named
  rw [componentTags, lines, List.flatMap_map, List.mem_filter, decide_eq_true_iff,
    ← mem_rootLines_tags component named]

end Section

section Targets

variable {framework : Framework} {registry : Registry} {name : String}

theorem exists_file (known : name ∈ registry.names) :
    ∃ file ∈ files framework registry, file.path = path framework name := by
  obtain ⟨template, member, rfl⟩ := List.mem_map.mp known
  exact ⟨file framework template, List.mem_map_of_mem member, rfl⟩

theorem path_react_inj {other : String} (same : path .react name = path .react other) :
    capitalize name = capitalize other := by
  rw [path, path, ← String.toList_inj, String.toList_append, String.toList_append,
    List.append_left_inj, String.toList_inj] at same
  exact same

theorem function_mem_bindings (named : ∀ template ∈ registry.templates, Named template)
    {target : ComponentFile} (member : target ∈ files .react registry)
    (same : target.path = path .react name) :
    .function (capitalize name) ∈ bindings .react target.content := by
  obtain ⟨template, known, rfl⟩ := List.mem_map.mp member
  rw [bindings_file .react (named template known), ← path_react_inj same]
  exact List.mem_cons_of_mem _ (List.mem_append_right _ List.mem_cons_self)

end Targets

end Component

/-- Components link. A tag of a component stands for what is imported or for the component
itself, every import is used as a tag, the imports are those of the other templates that the
content refers to, in the order in which it first does, and each leads to a file of the same
output that exports the name. -/
theorem Compilation.components_link (resolve : Resolver) (purpose : Purpose)
    (roots : List String) (source : String) (framework : Framework)
    (component : framework ≠ .html) :
    let registry := (ofSource resolve purpose roots source).document.templates
    let files := Component.files framework registry
    ∀ template ∈ registry.templates,
      let file := Component.file framework template
      let tags := Component.componentTags framework file.content
      let imported := Component.imports framework (Component.bindings framework file.content)
      (∀ tag ∈ tags,
        tag = Component.capitalize template.name ∨ tag ∈ imported.map Prod.fst) ∧
      (∀ name ∈ imported.map Prod.fst, name ∈ tags) ∧
      (∃ names : List String,
        (∀ name, name ∈ names ↔ name ∈ Component.uses template ∧ name ≠ template.name) ∧
        (names.Pairwise fun first second =>
          (Component.uses template).idxOf first < (Component.uses template).idxOf second) ∧
        imported = names.map fun name =>
          (Component.capitalize name, Component.path framework name)) ∧
      ∀ name path, (name, path) ∈ imported →
        (∃ target ∈ files, target.path = path) ∧
        (framework = .react → ∀ target ∈ files, target.path = path →
          .function name ∈ Component.bindings .react target.content) := by
  intro registry files template member file tags imported
  have named : Component.Named template := Document.named_of_mem_templates member
  have known : Component.uses template ⊆ registry.names := Document.uses_subset_names member
  have used : ∀ tag, tag ∈ tags ↔ ∃ name ∈ Component.uses template,
      Component.capitalize name = tag := fun tag =>
    Component.mem_componentTags_iff component named
  have imports : imported = (Component.dependencies template).map fun name =>
      (Component.capitalize name, Component.path framework name) :=
    Component.imports_file component named
  rw [imports]
  refine ⟨?resolved, ?used, ⟨_, ?others, Component.pairwise_dependencies template, rfl⟩, ?targets⟩
  case resolved =>
    intro tag inTags
    obtain ⟨name, inContent, rfl⟩ := (used tag).mp inTags
    by_cases own : name = template.name
    · exact .inl (congrArg Component.capitalize own)
    · have imported := Component.mem_dependencies_iff.mpr ⟨inContent, own⟩
      exact .inr (List.mem_map_of_mem (List.mem_map_of_mem imported))
  case used =>
    intro _ imported
    rw [List.map_map, List.mem_map] at imported
    obtain ⟨name, dependency, rfl⟩ := imported
    exact (used _).mpr ⟨name, (Component.mem_dependencies_iff.mp dependency).1, rfl⟩
  case others => exact fun name => Component.mem_dependencies_iff
  case targets =>
    intro _ _ imported
    obtain ⟨name, dependency, same⟩ := List.mem_map.mp imported
    obtain ⟨rfl, rfl⟩ := Prod.mk.inj same
    have inContent := (Component.mem_dependencies_iff.mp dependency).1
    refine ⟨Component.exists_file (known inContent), ?_⟩
    rintro rfl target inFiles samePath
    exact Component.function_mem_bindings
      (fun template member => Document.named_of_mem_templates member) inFiles samePath

/-- A component that is imported is used, and the import leads to a file that exports it. -/
theorem Compilation.components_link_recased :
    let registry := (ofSource Shorthand.resolve .generate [] "x[a + A]").document.templates
    Framework.react ≠ .html ∧ ∃ template ∈ registry.templates,
      let file := Component.file .react template
      let imported := Component.imports .react (Component.bindings .react file.content)
      ("A", "A.tsx") ∈ imported ∧ "A" ∈ Component.componentTags .react file.content ∧
        ∃ target ∈ Component.files .react registry, target.path = "A.tsx" ∧
          .function "A" ∈ Component.bindings .react target.content := by
  intro registry
  have member : _ ∈ registry.templates := Document.mem_templates_recased_uses
  obtain ⟨-, used, ⟨names, others, -, imports⟩, targets⟩ :=
    components_link Shorthand.resolve .generate [] "x[a + A]" .react nofun _ member
  have path : Component.path .react "a" = "A.tsx" := by cbv
  have capital : Component.capitalize "a" = "A" := by cbv
  have listed : "a" ∈ names := (others "a").mpr (by decide)
  have imported := List.mem_map_of_mem
    (f := fun name => (Component.capitalize name, Component.path .react name)) listed
  rw [← imports, path, capital] at imported
  obtain ⟨⟨target, inFiles, same⟩, exported⟩ := targets _ _ imported
  exact ⟨nofun, _, member, imported, used _ (List.mem_map_of_mem imported), target, inFiles, same,
    exported rfl target inFiles same⟩

end Wireframe
