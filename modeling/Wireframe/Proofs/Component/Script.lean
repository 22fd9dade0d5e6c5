import Wireframe.Proofs.Component.Paths

/-! What a component file says, read from its text. The script is read for the statements
that bind a name and the markup for its tags, line by line. A script binds what the content
refers to, and the tags of the markup are those names. -/

namespace Wireframe

namespace Json

theorem newline_notMem_escapeChar (c : Char) : '\n' ∉ escapeChar c := by
  have digit : ∀ value : Fin 16, '\n' ≠ hexDigit value := by decide
  unfold escapeChar
  split
  case h_1 | h_2 | h_3 | h_4 | h_5 | h_6 | h_7 => decide
  case h_8 notNewline _ _ =>
    split
    next control =>
      have high := digit ⟨c.toNat / 16, by omega⟩
      have low := digit ⟨c.toNat % 16, by omega⟩
      simp [high, low]
    next => simpa using Ne.symm notNewline

theorem newline_notMem_quote (text : String) : '\n' ∉ (quote text).toList := by
  simp [quote, newline_notMem_escapeChar]

end Json

namespace Component

/-- A statement that binds a name in a module: an import of what another module exports by
default or under that name, or a function that is exported. -/
inductive Binding
  | importDefault (name source : String)
  | importNamed (name source : String)
  | function (name : String)
  deriving Repr, DecidableEq

namespace Binding

def name : Binding → String
  | .importDefault name _ => name
  | .importNamed name _ => name
  | .function name => name

/-- What an import takes its name from. -/
def source? : Binding → Option String
  | .importDefault _ source => some source
  | .importNamed _ source => some source
  | .function _ => none

/-- The text between the single quotes at the start of a word. -/
def unquote (word : String) : String :=
  String.ofList ((word.toList.drop 1).takeWhile (· ≠ '\''))

def ofWords? : List String → Option Binding
  | ["import", name, "from", source] => some (.importDefault name (unquote source))
  | ["import", "\x7b", name, "\x7d", "from", source] => some (.importNamed name (unquote source))
  | ["export", "function", header, "\x7b"] =>
      some (.function (String.ofList (header.toList.takeWhile (· ≠ '('))))
  | _ => none

/-- Reads a line of a module. What is indented binds nothing in it. -/
def ofLine? (line : List Char) : Option Binding :=
  ofWords? ((line.splitOn ' ').map String.ofList)

end Binding

/-- The lines between the first that is `opener` and the next that is `closer`. -/
def between (opener closer : String) (lines : List (List Char)) : List (List Char) :=
  ((lines.dropWhile (· ≠ opener.toList)).drop 1).takeWhile (· ≠ closer.toList)

/-- The lines of a file that stand in its script. A page has none. -/
def scriptLines : Framework → List (List Char) → List (List Char)
  | .html, _ => []
  | .vue, lines => between "<script setup lang=\"ts\">" "</script>" lines
  | .react, lines => lines

def bindings (framework : Framework) (content : String) : List Binding :=
  (scriptLines framework (content.toList.splitOn '\n')).filterMap Binding.ofLine?

/-! The text of a file is split into the lines that it was written with. -/

/-- A text that stands on one line. -/
def IsLine (text : String) : Prop :=
  '\n' ∉ text.toList

instance (text : String) : Decidable (IsLine text) :=
  inferInstanceAs (Decidable ('\n' ∉ text.toList))

theorem intercalate_newline {lines : List (List Char)} (nonempty : lines ≠ []) :
    ['\n'].intercalate lines ++ ['\n'] = lines.flatMap (· ++ ['\n']) := by
  induction lines with
  | nil => exact absurd rfl nonempty
  | cons line rest ih =>
      cases rest with
      | nil => simp
      | cons next others =>
          rw [List.intercalate_cons_cons, List.append_assoc, ih (List.cons_ne_nil next others)]
          rfl

theorem splitOn_flatMap_append {lines : List String} (single : ∀ line ∈ lines, IsLine line)
    (rest : List Char) :
    ((lines.map String.toList).flatMap (· ++ ['\n']) ++ rest).splitOn '\n' =
      lines.map String.toList ++ rest.splitOn '\n' := by
  induction lines with
  | nil => rfl
  | cons line others ih =>
      have later := ih fun line member => single line (List.mem_cons_of_mem _ member)
      have here : line.toList.splitOn '\n' = [line.toList] :=
        List.splitOn_eq_singleton (single line List.mem_cons_self)
      rw [List.map_cons, List.flatMap_cons, List.append_assoc, List.append_assoc,
        List.singleton_append, Path.splitOn_append_cons, later, here]
      rfl

section Content

variable {framework : Framework} {template : Template}

theorem toList_content (framework : Framework) (template : Template) :
    (file framework template).content.toList =
      ((fileLines framework template).map String.toList).flatMap (· ++ ['\n']) := by
  have nonempty : (fileLines framework template).map String.toList ≠ [] := by
    cases framework <;> simp [fileLines, htmlLines, vueLines, reactLines]
  rw [file, String.toList_append, String.toList_intercalate]
  exact intercalate_newline nonempty

theorem splitOn_content (single : ∀ line ∈ fileLines framework template, IsLine line) :
    (file framework template).content.toList.splitOn '\n' =
      (fileLines framework template).map String.toList ++ [[]] := by
  have whole := splitOn_flatMap_append single []
  rwa [List.append_nil, ← toList_content] at whole

theorem forall_ne_of_notMem {line : String} {lines : List String} (absent : line ∉ lines) :
    ∀ other ∈ lines.map String.toList, decide (other ≠ line.toList) = true := by
  rw [List.forall_mem_map]
  intro other member
  rw [decide_eq_true_iff, ne_eq, String.toList_inj]
  exact ne_of_mem_of_not_mem member absent

/-- What a file begins with can be read between two of its lines, whatever comes after. -/
theorem between_content {opener closer : String} {front inside : List String}
    (begins : front ++ opener :: (inside ++ [closer]) <+: fileLines framework template)
    (single : ∀ line ∈ front ++ opener :: (inside ++ [closer]), IsLine line)
    (unopened : opener ∉ front) (unclosed : closer ∉ inside) :
    between opener closer ((file framework template).content.toList.splitOn '\n') =
      inside.map String.toList := by
  have ahead := forall_ne_of_notMem unopened
  have within := forall_ne_of_notMem unclosed
  -- only what comes before the closer is known to be split into its lines
  obtain ⟨back, split⟩ := begins
  rw [toList_content, ← split, List.map_append, List.flatMap_append, splitOn_flatMap_append single,
    between, List.map_append, List.append_assoc, List.dropWhile_append_of_pos ahead, List.map_cons,
    List.cons_append, List.dropWhile_cons_of_neg (by simp), List.drop_one, List.tail_cons,
    List.map_append, List.append_assoc, List.takeWhile_append_of_pos within, List.map_singleton,
    List.singleton_append, List.takeWhile_cons_of_neg (by simp), List.append_nil]

end Content

/-! Statements of a script, written and read back. -/

namespace Binding

def words : Binding → List String
  | .importDefault name source => ["import", name, "from", "'" ++ source ++ "';"]
  | .importNamed name source =>
      ["import", "\x7b", name, "\x7d", "from", "'" ++ source ++ "';"]
  | .function name => ["export", "function", name ++ "()", "\x7b"]

/-- A statement whose words can be told apart. -/
structure IsWritable (binding : Binding) : Prop where
  name : Name.IsPlain binding.name
  noBlank : ∀ source, binding.source? = some source → ' ' ∉ source.toList
  noQuote : ∀ source, binding.source? = some source → '\'' ∉ source.toList

theorem unquote_append {source : String} (noQuote : '\'' ∉ source.toList) :
    unquote ("'" ++ source ++ "';") = source := by
  have inside : ∀ c ∈ source.toList, decide (c ≠ '\'') = true := fun c member =>
    decide_eq_true (ne_of_mem_of_not_mem member noQuote)
  have quoted : ("'" ++ source ++ "';").toList = '\'' :: (source.toList ++ ['\'', ';']) := by
    simp
  rw [unquote, quoted, List.drop_one, List.tail_cons, List.takeWhile_append_of_pos inside]
  simp

theorem ofWords?_words {binding : Binding} (writable : binding.IsWritable) :
    ofWords? binding.words = some binding := by
  cases binding with
  | importDefault name source =>
      rw [words, ofWords?, unquote_append (writable.noQuote source rfl)]
  | importNamed name source =>
      rw [words, ofWords?, unquote_append (writable.noQuote source rfl)]
  | function name =>
      have inside : ∀ c ∈ name.toList, decide (c ≠ '(') = true := fun c member =>
        decide_eq_true (ne_of_mem_of_not_mem member (writable.name.not_mem rfl))
      have header : (name ++ "()").toList = name.toList ++ ['(', ')'] := by simp
      rw [words, ofWords?, header, List.takeWhile_append_of_pos inside]
      simp

theorem notMem_words {binding : Binding} (writable : binding.IsWritable) :
    ∀ word ∈ binding.words, ' ' ∉ word.toList := by
  have name : ' ' ∉ binding.name.toList := writable.name.not_mem rfl
  cases binding with
  | importDefault _ source | importNamed _ source =>
      have noBlank := writable.noBlank source rfl
      simp_all [words, Binding.name]
  | function _ => simp_all [words, Binding.name]

theorem ofLine?_words {binding : Binding} (writable : binding.IsWritable) :
    ofLine? (" ".intercalate binding.words).toList = some binding := by
  have pieces : (" ".intercalate binding.words).toList.splitOn ' ' =
      binding.words.map String.toList := by
    rw [String.toList_intercalate]
    refine List.splitOn_intercalate ' ' (List.forall_mem_map.mpr (notMem_words writable)) ?_
    cases binding <;> simp [words]
  have words : (binding.words.map String.toList).map String.ofList = binding.words := by
    simp [Function.comp_def]
  rw [ofLine?, pieces, words, ofWords?_words writable]

end Binding

def importOf : Framework → String → Binding
  | .html, name | .vue, name => .importDefault (capitalize name) ("./" ++ capitalize name ++ ".vue")
  | .react, name => .importNamed (capitalize name) ("./" ++ capitalize name)

/-- What the script of a template binds. -/
def declared (framework : Framework) (template : Template) : List Binding :=
  let imports := (dependencies template).map (importOf framework)
  match framework with
  | .html => []
  | .vue => imports
  | .react =>
      .importDefault "React" "react" :: (imports ++ [.function (capitalize template.name)])

section Names

variable {name : String}

theorem isPlain_capitalize (plain : Name.IsPlain name) : Name.IsPlain (capitalize name) :=
  isPlain_tagName .vue plain

theorem isWritable_importOf (framework : Framework) (plain : Name.IsPlain name) :
    (importOf framework name).IsWritable := by
  have capital := isPlain_capitalize plain
  have noBlank : ' ' ∉ (capitalize name).toList := capital.not_mem rfl
  have noQuote : '\'' ∉ (capitalize name).toList := capital.not_mem rfl
  cases framework with
  | html | vue | react =>
      refine ⟨capital, ?_, ?_⟩
      · rintro source ⟨rfl⟩
        simpa using noBlank
      · rintro source ⟨rfl⟩
        simpa using noQuote

theorem isWritable_function (plain : Name.IsPlain name) : (Binding.function name).IsWritable :=
  ⟨plain, nofun, nofun⟩

theorem vueImport_eq (name : String) :
    vueImport name = " ".intercalate (importOf .vue name).words := by
  rw [← String.toList_inj]
  simp [vueImport, importOf, Binding.words]

theorem reactImport_eq (name : String) :
    reactImport name = " ".intercalate (importOf .react name).words := by
  rw [← String.toList_inj]
  simp [reactImport, importOf, Binding.words]

end Names

/-! Every line but those of a style sheet is a single one, whatever the styles are. -/

/-- The names that the content of a template refers to. -/
def uses (template : Template) : List String :=
  template.content.elim [] Expr.references

structure Named (template : Template) : Prop where
  name : Name.IsPlain template.name
  uses : ∀ name ∈ uses template, Name.IsPlain name

/-- The component that a tag stands for. -/
def Tag.name? : Tag → Option String
  | .empty name => some name
  | .start name => some name
  | .stop name => some name
  | .startGroup _ => none
  | .stopGroup => none

mutual
theorem mem_names_lines (name : String) (depth : Nat) : (expression : Expr) →
    (name ∈ (lines depth expression).filterMap (·.tag.name?) ↔ name ∈ expression.references)
  | .entity _ => by simp [lines, Tag.name?, Expr.references]
  | .group _ children => by
      have inside := mem_names_linesAll name (depth + 1) children
      simpa [lines, Tag.name?, Expr.references] using inside
  | .container owner content => by
      have inside := mem_names_lines name (depth + 1) content
      have names : (lines depth (.container owner content)).filterMap (·.tag.name?) =
          owner :: ((lines (depth + 1) content).filterMap (·.tag.name?) ++ [owner]) := by
        simp [lines, Tag.name?]
      rw [names, Expr.references, List.mem_cons, List.mem_append, List.mem_singleton, inside,
        List.mem_cons]
      tauto

theorem mem_names_linesAll (name : String) (depth : Nat) : (items : List Expr) →
    (name ∈ (linesAll depth items).filterMap (·.tag.name?) ↔ name ∈ Expr.referencesAll items)
  | [] => by simp [linesAll, Expr.referencesAll]
  | item :: rest => by
      rw [linesAll, List.filterMap_append, Expr.referencesAll, List.mem_append, List.mem_append,
        mem_names_lines name depth item, mem_names_linesAll name depth rest]
end

mutual
theorem depth_le_of_mem_lines {line : Line} {depth : Nat} : (expression : Expr) →
    line ∈ lines depth expression → depth ≤ line.depth
  | .entity _, member => by
      obtain rfl := List.mem_singleton.mp member
      exact Nat.le_refl depth
  | .group _ children, member => by
      simp only [lines, List.mem_cons, List.mem_append, List.not_mem_nil, or_false] at member
      rcases member with rfl | inside | rfl
      · exact Nat.le_refl depth
      · exact Nat.le_of_succ_le (depth_le_of_mem_linesAll children inside)
      · exact Nat.le_refl depth
  | .container _ content, member => by
      simp only [lines, List.mem_cons, List.mem_append, List.not_mem_nil, or_false] at member
      rcases member with rfl | inside | rfl
      · exact Nat.le_refl depth
      · exact Nat.le_of_succ_le (depth_le_of_mem_lines content inside)
      · exact Nat.le_refl depth

theorem depth_le_of_mem_linesAll {line : Line} {depth : Nat} : (items : List Expr) →
    line ∈ linesAll depth items → depth ≤ line.depth
  | [], member => by cases member
  | item :: rest, member => by
      cases List.mem_append.mp member with
      | inl first => exact depth_le_of_mem_lines item first
      | inr later => exact depth_le_of_mem_linesAll rest later
end

theorem mem_uses_iff {template : Template} {name : String} (depth : Nat) :
    name ∈ uses template ↔
      ∃ line ∈ template.content.elim [] (lines depth), line.tag.name? = some name := by
  cases stored : template.content with
  | none => simp [uses, stored]
  | some content =>
      rw [uses, stored, Option.elim_some, Option.elim_some, ← mem_names_lines name depth content,
        List.mem_filterMap]

theorem Named.of_mem_lines {template : Template} (named : Named template) {name : String}
    {depth : Nat} {line : Line} (member : line ∈ template.content.elim [] (lines depth))
    (written : line.tag.name? = some name) : Name.IsPlain name :=
  named.uses name ((mem_uses_iff depth).mpr ⟨line, member, written⟩)

/-- A line that stands at some depth of indentation or deeper. -/
def Indented (depth : Nat) (line : String) : Prop :=
  (Json.indent depth).toList <+: line.toList

instance (depth : Nat) (line : String) : Decidable (Indented depth line) :=
  inferInstanceAs (Decidable (_ <+: _))

theorem indented_print {framework : Framework} {depth : Nat} {line : Line}
    (deep : depth ≤ line.depth) : Indented depth (line.print framework) := by
  refine ⟨List.replicate (2 * line.depth - 2 * depth) ' ' ++ (line.tag.print framework).toList, ?_⟩
  rw [Line.print, String.toList_append, Json.indent, Json.indent, String.toList_ofList,
    String.toList_ofList, ← List.append_assoc, List.replicate_append_replicate]
  congr 2
  omega

theorem Indented.mono {line : String} {depth deeper : Nat} (indented : Indented deeper line)
    (less : depth ≤ deeper) : Indented depth line := by
  refine List.IsPrefix.trans ⟨List.replicate (2 * deeper - 2 * depth) ' ', ?_⟩ indented
  rw [Json.indent, Json.indent, String.toList_ofList, String.toList_ofList,
    List.replicate_append_replicate]
  congr 1
  omega

theorem Indented.ofLine?_eq_none {line : String} (indented : Indented 1 line) :
    Binding.ofLine? line.toList = none := by
  obtain ⟨rest, split⟩ := indented
  have first : line.toList = ' ' :: (' ' :: rest) := split.symm
  rw [first, Binding.ofLine?, List.splitOn_cons_eq_if_modifyHead, if_pos (by rfl), List.map_cons]
  rfl

section Single

variable {name : String} {framework : Framework}

theorem isLine_append {first second : String} :
    IsLine (first ++ second) ↔ IsLine first ∧ IsLine second := by
  rw [IsLine, String.toList_append, List.mem_append, not_or]
  rfl

theorem isLine_of_isPlain (plain : Name.IsPlain name) : IsLine name :=
  plain.not_mem rfl

theorem isLine_vueImport (plain : Name.IsPlain name) : IsLine (vueImport name) := by
  have capital := isLine_of_isPlain (isPlain_capitalize plain)
  simp only [vueImport, isLine_append]
  exact ⟨⟨⟨⟨by decide, capital⟩, by decide⟩, capital⟩, by decide⟩

theorem isLine_reactImport (plain : Name.IsPlain name) : IsLine (reactImport name) := by
  have capital := isLine_of_isPlain (isPlain_capitalize plain)
  simp only [reactImport, isLine_append]
  exact ⟨⟨⟨⟨by decide, capital⟩, by decide⟩, capital⟩, by decide⟩

theorem isLine_tag {tag : Tag} (plain : ∀ name, tag.name? = some name → Name.IsPlain name) :
    IsLine (tag.print framework) := by
  have around {before inner after : String} (inside : IsLine inner)
      (outside : IsLine before ∧ IsLine after) : IsLine (before ++ inner ++ after) :=
    isLine_append.mpr ⟨isLine_append.mpr ⟨outside.1, inside⟩, outside.2⟩
  cases tag with
  | empty name | start name | stop name =>
      have inside := isLine_of_isPlain (isPlain_tagName framework (plain name rfl))
      exact around inside ⟨by simp [IsLine], by simp [IsLine]⟩
  | startGroup direction =>
      have inside : IsLine direction.keyword := by
        cases direction <;> simp [IsLine, Direction.keyword]
      cases framework with
      | html | vue | react => exact around inside ⟨by decide +kernel, by decide +kernel⟩
  | stopGroup => exact (by simp [IsLine] : IsLine "</div>")

theorem isLine_print {line : Line}
    (plain : ∀ name, line.tag.name? = some name → Name.IsPlain name) :
    IsLine (line.print framework) := by
  have blanks : IsLine (Json.indent line.depth) := by simp [IsLine, Json.indent]
  exact isLine_append.mpr ⟨blanks, isLine_tag plain⟩

theorem forall_mem_markup {template : Template} {depth : Nat}
    (named : Named template) : ∀ line ∈ markup framework depth template.content,
      IsLine line ∧ Indented depth line := by
  intro line member
  obtain ⟨written, listed, rfl⟩ := List.mem_map.mp member
  refine ⟨isLine_print fun name => named.of_mem_lines listed, indented_print ?_⟩
  cases stored : template.content with
  | none =>
      rw [stored] at listed
      cases listed
  | some content =>
      rw [stored] at listed
      exact depth_le_of_mem_lines content listed

theorem mem_reactStyles {declarations : List Declaration} {line : String}
    (member : line ∈ reactStyles declarations) :
    ∃ declaration, line = reactStyle declaration ∨ line = reactStyle declaration ++ "," := by
  fun_induction reactStyles declarations with
  | case1 => cases member
  | case2 last => exact ⟨last, .inl (List.mem_singleton.mp member)⟩
  | case3 first rest _ ih =>
      cases List.mem_cons.mp member with
      | inl same => exact ⟨first, .inr same⟩
      | inr later => exact ih later

theorem forall_mem_reactStyles (declarations : List Declaration) :
    ∀ line ∈ reactStyles declarations, IsLine line ∧ "      \"".toList <+: line.toList := by
  have field : ∀ declaration, IsLine (reactStyle declaration) ∧
      "      \"".toList <+: (reactStyle declaration).toList := by
    intro declaration
    constructor
    · simp only [reactStyle, isLine_append]
      exact ⟨⟨⟨by decide, Json.newline_notMem_quote _⟩, by decide⟩, Json.newline_notMem_quote _⟩
    · simp [reactStyle, Json.quote]
  intro line member
  obtain ⟨declaration, rfl | rfl⟩ := mem_reactStyles member
  · exact field declaration
  · rw [isLine_append, String.toList_append]
    exact ⟨⟨(field declaration).1, by decide⟩,
      (field declaration).2.trans (List.prefix_append _ _)⟩

end Single

/-! What the script of a file binds. -/

section Script

variable {template : Template}

theorem mem_dependencies_iff {name : String} :
    name ∈ dependencies template ↔ name ∈ uses template ∧ name ≠ template.name := by
  simp [dependencies, uses]

theorem Named.of_mem_dependencies (named : Named template) {name : String}
    (member : name ∈ dependencies template) : Name.IsPlain name :=
  named.uses name (mem_dependencies_iff.mp member).1

theorem filterMap_imports {framework : Framework} {write : String → String}
    (words : ∀ name, write name = " ".intercalate (importOf framework name).words)
    (named : Named template) :
    (((dependencies template).map write).map String.toList).filterMap Binding.ofLine? =
      (dependencies template).map (importOf framework) := by
  rw [List.map_map, List.filterMap_map, ← List.filterMap_eq_map]
  apply List.filterMap_congr
  intro name member
  rw [Function.comp_apply, Function.comp_apply, words]
  exact Binding.ofLine?_words (isWritable_importOf framework (named.of_mem_dependencies member))

theorem bindings_vue (named : Named template) :
    bindings .vue (file .vue template).content = declared .vue template := by
  have begins : [] ++ "<script setup lang=\"ts\">" ::
      ((dependencies template).map vueImport ++ ["</script>"]) <+: fileLines .vue template := by
    simp [fileLines, vueLines]
  have single : ∀ line ∈ [] ++ "<script setup lang=\"ts\">" ::
      ((dependencies template).map vueImport ++ ["</script>"]), IsLine line := by
    simp only [List.nil_append, List.mem_cons, List.mem_append, List.mem_map, List.not_mem_nil,
      or_false]
    rintro line (rfl | ⟨name, member, rfl⟩ | rfl)
    · decide
    · exact isLine_vueImport (named.of_mem_dependencies member)
    · decide
  have unclosed : "</script>" ∉ (dependencies template).map vueImport := by
    rw [List.mem_map]
    rintro ⟨name, -, same⟩
    have first := congrArg (·.toList.head?) same
    simp [vueImport] at first
  rw [bindings, scriptLines, between_content begins single List.not_mem_nil unclosed,
    filterMap_imports vueImport_eq named]
  rfl

theorem functionHeader_eq (name : String) :
    "export function " ++ name ++ "() \x7b" = " ".intercalate (Binding.function name).words := by
  rw [← String.toList_inj]
  simp [Binding.words]

def returned (template : Template) : List String :=
  ["    <section style=\x7b\x7b"] ++ reactStyles template.styles.declarations ++
    ["    \x7d\x7d>"] ++ markup .react 3 template.content ++ ["    </section>"]

theorem reactLines_eq (template : Template) :
    reactLines template = "import React from 'react';" ::
      ((dependencies template).map reactImport ++
        "" :: ("export function " ++ capitalize template.name ++ "() \x7b") ::
          "  return (" :: (returned template ++ ["  );", "\x7d"])) := by
  simp [reactLines, returned]

theorem forall_mem_returned (named : Named template) :
    ∀ line ∈ returned template, IsLine line ∧ Indented 2 line := by
  have styled : ∀ line ∈ reactStyles template.styles.declarations,
      IsLine line ∧ Indented 2 line := by
    intro line member
    obtain ⟨single, begins⟩ := forall_mem_reactStyles _ line member
    exact ⟨single, List.IsPrefix.trans (by decide) begins⟩
  have marked : ∀ line ∈ markup .react 3 template.content, IsLine line ∧ Indented 2 line := by
    intro line member
    obtain ⟨single, deep⟩ := forall_mem_markup named line member
    exact ⟨single, deep.mono (by decide)⟩
  simp only [returned, List.mem_append, List.mem_singleton]
  rintro line ((((rfl | style) | rfl) | mark) | rfl)
  · decide
  · exact styled line style
  · decide
  · exact marked line mark
  · decide

theorem forall_mem_reactLines (named : Named template) :
    ∀ line ∈ reactLines template, IsLine line := by
  have capital := isLine_of_isPlain (isPlain_capitalize named.name)
  have header : IsLine ("export function " ++ capitalize template.name ++ "() \x7b") := by
    simp only [isLine_append]
    exact ⟨⟨by decide, capital⟩, by decide⟩
  rw [reactLines_eq]
  simp only [List.mem_cons, List.mem_append, List.mem_map, List.not_mem_nil, or_false]
  rintro line (rfl | ⟨name, member, rfl⟩ | rfl | rfl | rfl | markup | rfl | rfl)
  · decide
  · exact isLine_reactImport (named.of_mem_dependencies member)
  · decide
  · exact header
  · decide
  · exact (forall_mem_returned named line markup).1
  · decide
  · decide

theorem bindings_react (named : Named template) :
    bindings .react (file .react template).content = declared .react template := by
  have single : ∀ line ∈ fileLines .react template, IsLine line := forall_mem_reactLines named
  have function : Binding.ofLine?
      ("export function " ++ capitalize template.name ++ "() \x7b").toList =
        some (.function (capitalize template.name)) := by
    rw [functionHeader_eq]
    exact Binding.ofLine?_words (isWritable_function (isPlain_capitalize named.name))
  have unbound : ((returned template).map String.toList).filterMap Binding.ofLine? = [] := by
    rw [List.filterMap_map, List.filterMap_eq_nil_iff]
    intro line member
    exact ((forall_mem_returned named line member).2.mono (by decide)).ofLine?_eq_none
  have react : Binding.ofLine? "import React from 'react';".toList =
      some (.importDefault "React" "react") := by cbv
  have blank : Binding.ofLine? "".toList = none := by cbv
  have opener : Binding.ofLine? "  return (".toList = none := by cbv
  have closer : Binding.ofLine? "  );".toList = none := by cbv
  have ending : Binding.ofLine? "\x7d".toList = none := by cbv
  rw [bindings, scriptLines, splitOn_content single, fileLines, reactLines_eq]
  simp only [List.map_cons, List.map_append, List.map_nil, List.cons_append, List.append_assoc,
    List.filterMap_cons, List.filterMap_append, filterMap_imports reactImport_eq named, function,
    unbound, react, blank, opener, closer, ending]
  rfl

/-- A script binds what the template uses and, as a function, the component itself. -/
theorem bindings_file (framework : Framework) (named : Named template) :
    bindings framework (file framework template).content = declared framework template := by
  cases framework with
  | html => rfl
  | vue => exact bindings_vue named
  | react => exact bindings_react named

end Script

end Component

end Wireframe
