import Wireframe.Proofs.Component.Links

/-! Markup is well nested and faithful: every element that a line opens is closed by a line as
deep, what stands between the two is one level deeper, and the tags tell the expression up to
the capitals of its names. -/

namespace Wireframe

/-! An expression with other names. -/

mutual
def Expr.rename (change : String → String) : Expr → Expr
  | .entity name => .entity (change name)
  | .group direction children => .group direction (Expr.renameAll change children)
  | .container name content => .container (change name) (content.rename change)

def Expr.renameAll (change : String → String) : List Expr → List Expr
  | [] => []
  | item :: rest => item.rename change :: Expr.renameAll change rest
end

mutual
theorem Expr.rename_eq_self {change : String → String} (same : ∀ name, change name = name) :
    (expression : Expr) → expression.rename change = expression
  | .entity name => by rw [rename, same]
  | .group _ children => by rw [rename, renameAll_eq_self same children]
  | .container name content => by rw [rename, same, rename_eq_self same content]

theorem Expr.renameAll_eq_self {change : String → String} (same : ∀ name, change name = name) :
    (items : List Expr) → renameAll change items = items
  | [] => rfl
  | item :: rest => by rw [renameAll, rename_eq_self same item, renameAll_eq_self same rest]
end

namespace Component

/-- What the tag of a line says of the elements around it. An element that stands alone holds
nothing, and one that opens has attributes as they are written. -/
inductive TagMark
  | stands (name : String)
  | opens (name attributes : String)
  | closes (name : String)
  deriving DecidableEq

namespace TagMark

/-- The mark of a tag that takes up the whole text. -/
def ofText? : List Char → Option TagMark
  | '<' :: '/' :: rest =>
      let name := tagAt rest
      if rest = name.toList ++ ['>'] then some (.closes name) else none
  | '<' :: rest =>
      let name := tagAt rest
      let after := rest.drop name.length
      let attributes := after.takeWhile (· ∉ ['<', '>'])
      if after = attributes ++ ['>'] then
        some (if attributes = [' ', '/'] then .stands name
          else .opens name (String.ofList attributes))
      else none
  | _ => none

/-- The elements that are open after a mark, the innermost first. -/
def pass : TagMark → List String → Option (List String)
  | .stands _, around => some around
  | .opens name _, around => some (name :: around)
  | .closes _, [] => none
  | .closes name, innermost :: around => if name = innermost then some around else none

end TagMark

def indentation (line : String) : Nat :=
  (line.toList.takeWhile (· = ' ')).length

def unindented (line : String) : List Char :=
  line.toList.dropWhile (· = ' ')

/-- The elements that are open after a line. The line stands as deep as there are elements
around its own, which is open after the line that opens it and before the one that closes it. -/
def passLine (depth : Nat) (around : List String) (line : String) : Option (List String) :=
  ((TagMark.ofText? (unindented line)).bind fun mark => mark.pass around).filter fun after =>
    indentation line = 2 * (depth + min around.length after.length)

/-- Lines with one tag each, whose elements are all closed, each inside the one around it, and
are indented as deep as they are nested. -/
def WellNested (depth : Nat) (lines : List String) : Prop :=
  lines.foldlM (passLine depth) [] = some []

instance (depth : Nat) (lines : List String) : Decidable (WellNested depth lines) :=
  inferInstanceAs (Decidable (_ = _))

/-! What a tag reads as. -/

/-- The attributes of a group. -/
def boxStyle (framework : Framework) (direction : Direction) : String :=
  match framework with
  | .html | .vue => " style=\"display:flex; flex-direction:" ++ direction.keyword ++ "; gap:8px;\""
  | .react => " style=\x7b\x7b display: \"flex\", flexDirection: \"" ++ direction.keyword ++
      "\", gap: \"8px\" \x7d\x7d"

def Tag.mark (framework : Framework) : Tag → TagMark
  | .empty name => .stands (tagName framework name)
  | .start name => .opens (tagName framework name) ""
  | .stop name => .closes (tagName framework name)
  | .startGroup direction => .opens "div" (boxStyle framework direction)
  | .stopGroup => .closes "div"

section Reading

variable {framework : Framework} {name : String}

theorem ofText?_named (plain : Name.IsPlain name) {attributes : List Char}
    (ends : ∀ c, (attributes ++ ['>']).head? = some c → Name.isTail c = false)
    (inside : ∀ c ∈ attributes, c ∉ ['<', '>']) :
    TagMark.ofText? ('<' :: (name.toList ++ (attributes ++ ['>']))) =
      some (if attributes = [' ', '/'] then .stands name
        else .opens name (String.ofList attributes)) := by
  obtain ⟨head, tail, named, isHead, -⟩ := id plain
  have noSlash : head ≠ '/' := by
    rintro rfl
    cases isHead
  have read : tagAt (name.toList ++ (attributes ++ ['>'])) = name := by
    cases after : attributes ++ ['>'] with
    | nil => simp at after
    | cons c rest => exact tagAt_append plain (ends c (by rw [after]; rfl)) rest
  have span : (attributes ++ ['>']).takeWhile (· ∉ ['<', '>']) = attributes :=
    (Text.span_append (by simpa using inside) (by simp)).1
  have past : (name.toList ++ (attributes ++ ['>'])).drop name.length = attributes ++ ['>'] :=
    List.drop_left' String.length_toList
  rw [named, List.cons_append] at read past ⊢
  rw [TagMark.ofText?]
  · simp only [read, past, span, if_pos]
  · intro rest same
    exact noSlash (List.cons.inj same).1

theorem print_startGroup (framework : Framework) (direction : Direction) :
    (Tag.startGroup direction).print framework = "<div" ++ boxStyle framework direction ++ ">" := by
  cases framework with
  | html | vue | react => cases direction with
    | row | column => decide +kernel

/-- The attributes of a group begin with a blank and do not end its tag. -/
theorem boxStyle_within (framework : Framework) (direction : Direction) :
    (boxStyle framework direction).toList.take 2 = [' ', 's'] ∧
      (boxStyle framework direction).toList.all (· ∉ ['<', '>']) = true := by
  cases framework with
  | html | vue | react => cases direction with
    | row | column => decide +kernel

theorem exists_boxStyle (framework : Framework) (direction : Direction) :
    ∃ rest, (boxStyle framework direction).toList = ' ' :: 's' :: rest := by
  have begins := (boxStyle_within framework direction).1
  refine ⟨(boxStyle framework direction).toList.drop 2, ?_⟩
  rw [← List.take_append_drop 2 (boxStyle framework direction).toList, begins]
  rfl

theorem print_stopGroup (framework : Framework) : Tag.stopGroup.print framework = "</div>" := rfl

theorem ofText?_print {tag : Tag} (plain : ∀ name, tag.name? = some name → Name.IsPlain name) :
    TagMark.ofText? (tag.print framework).toList = some (tag.mark framework) := by
  cases tag with
  | empty name =>
      have written := isPlain_tagName framework (plain name rfl)
      have chars : ("<" ++ tagName framework name ++ " />").toList =
          '<' :: ((tagName framework name).toList ++ ([' ', '/'] ++ ['>'])) := by simp
      rw [print_empty, chars, ofText?_named written (by simp [Name.isTail]) (by simp)]
      rfl
  | start name =>
      have written := isPlain_tagName framework (plain name rfl)
      have chars : ("<" ++ tagName framework name ++ ">").toList =
          '<' :: ((tagName framework name).toList ++ ([] ++ ['>'])) := by simp
      rw [print_start, chars, ofText?_named written (by simp [Name.isTail]) (by simp)]
      rfl
  | stop name =>
      have written := isPlain_tagName framework (plain name rfl)
      have chars : ("</" ++ tagName framework name ++ ">").toList =
          '<' :: '/' :: ((tagName framework name).toList ++ ['>']) := by simp
      have read : tagAt ((tagName framework name).toList ++ ['>']) = tagName framework name :=
        tagAt_append written rfl []
      rw [print_stop, chars, TagMark.ofText?]
      simp only [read, if_pos]
      rfl
  | startGroup direction =>
      obtain ⟨rest, begins⟩ := exists_boxStyle framework direction
      have chars : ("<div" ++ boxStyle framework direction ++ ">").toList =
          '<' :: ("div".toList ++ ((boxStyle framework direction).toList ++ ['>'])) := by simp
      have notAlone : (boxStyle framework direction).toList ≠ [' ', '/'] := by simp [begins]
      have inside : ∀ c ∈ (boxStyle framework direction).toList, c ∉ ['<', '>'] := by
        simpa using (boxStyle_within framework direction).2
      rw [print_startGroup, chars, ofText?_named isPlain_div (by simp [begins, Name.isTail]) inside,
        if_neg notAlone, String.ofList_toList, Tag.mark]
  | stopGroup =>
      have read : TagMark.ofText? "</div>".toList = some (.closes "div") := by decide +kernel
      rw [print_stopGroup, read, Tag.mark]

theorem head?_print (tag : Tag) : (tag.print framework).toList.head? = some '<' := by
  cases tag with
  | empty name => simp [print_empty]
  | start name => simp [print_start]
  | stop name => simp [print_stop]
  | startGroup direction => simp [print_startGroup]
  | stopGroup => simp [print_stopGroup]

theorem span_print (framework : Framework) (line : Line) :
    indentation (line.print framework) = 2 * line.depth ∧
      unindented (line.print framework) = (line.tag.print framework).toList := by
  have blanks : ∀ c ∈ (Json.indent line.depth).toList, decide (c = ' ') = true := by
    simp [Json.indent]
  have ends : ∀ c, (line.tag.print framework).toList.head? = some c →
      decide (c = ' ') = false := by simp [head?_print]
  have span := Text.span_append blanks ends
  rw [indentation, unindented, Line.print, String.toList_append, span.1, span.2]
  simp [Json.indent]

theorem passLine_print {depth : Nat} {around after : List String} {line : Line}
    (plain : ∀ name, line.tag.name? = some name → Name.IsPlain name)
    (passed : (line.tag.mark framework).pass around = some after)
    (deep : line.depth = depth + min around.length after.length) :
    passLine depth around (line.print framework) = some after := by
  obtain ⟨blanks, rest⟩ := span_print framework line
  rw [passLine, rest, ofText?_print plain, Option.bind_some, passed, blanks, deep]
  exact Option.filter_eq_some_iff.mpr ⟨rfl, decide_eq_true rfl⟩

end Reading

/-! Well nested: the lines of an expression leave the elements around it open. -/

section Nesting

variable {framework : Framework} {depth : Nat} {around : List String}

/-- An element is passed if what stands in it is, one level deeper. -/
theorem foldlM_element {name attributes : String} {opening closing : Tag} {inside : List String}
    (opens : opening.mark framework = .opens name attributes)
    (closes : closing.mark framework = .closes name)
    (plainOpening : ∀ name, opening.name? = some name → Name.IsPlain name)
    (plainClosing : ∀ name, closing.name? = some name → Name.IsPlain name)
    (within : inside.foldlM (passLine depth) (name :: around) = some (name :: around)) :
    (Line.print framework ⟨depth + around.length, opening⟩ ::
      (inside ++ [Line.print framework ⟨depth + around.length, closing⟩])).foldlM
        (passLine depth) around = some around := by
  have entered : passLine depth around
      (Line.print framework ⟨depth + around.length, opening⟩) = some (name :: around) := by
    apply passLine_print plainOpening
    · rw [opens, TagMark.pass]
    · simp
  have left : passLine depth (name :: around)
      (Line.print framework ⟨depth + around.length, closing⟩) = some around := by
    apply passLine_print plainClosing
    · rw [closes, TagMark.pass, if_pos rfl]
    · simp
  rw [List.foldlM_cons, entered, Option.bind_eq_bind, Option.bind_some, List.foldlM_append,
    within, Option.bind_eq_bind, Option.bind_some, List.foldlM_cons, left]
  rfl

mutual
theorem foldlM_lines (around : List String) : (expression : Expr) →
    (∀ name ∈ expression.references, Name.IsPlain name) →
    ((lines (depth + around.length) expression).map (Line.print framework)).foldlM
      (passLine depth) around = some around
  | .entity name, plain => by
      have alone : passLine depth around
          (Line.print framework ⟨depth + around.length, .empty name⟩) = some around := by
        apply passLine_print
        · rintro _ ⟨⟩
          exact plain name List.mem_cons_self
        · rfl
        · rw [Nat.min_self]
      rw [lines, List.map_singleton, List.foldlM_cons, alone]
      rfl
  | .group direction children, plain => by
      rw [lines, List.map_cons, List.map_append]
      apply foldlM_element rfl rfl (by rintro _ ⟨⟩) (by rintro _ ⟨⟩)
      exact foldlM_linesAll ("div" :: around) children plain
  | .container name content, plain => by
      have named : ∀ other, some name = some other → Name.IsPlain other := by
        rintro _ ⟨⟩
        exact plain name List.mem_cons_self
      have within := foldlM_lines (tagName framework name :: around) content
        fun other member => plain other (List.mem_cons_of_mem _ member)
      have opens : (Tag.start name).mark framework = .opens (tagName framework name) "" := rfl
      have closes : (Tag.stop name).mark framework = .closes (tagName framework name) := rfl
      rw [lines, List.map_cons, List.map_append]
      exact foldlM_element opens closes named named within

theorem foldlM_linesAll (around : List String) : (items : List Expr) →
    (∀ name ∈ Expr.referencesAll items, Name.IsPlain name) →
    ((linesAll (depth + around.length) items).map (Line.print framework)).foldlM
      (passLine depth) around = some around
  | [], _ => rfl
  | item :: rest, plain => by
      have first := foldlM_lines around item fun name member =>
        plain name (List.mem_append_left _ member)
      have others := foldlM_linesAll around rest fun name member =>
        plain name (List.mem_append_right _ member)
      rw [linesAll, List.map_append, List.foldlM_append, first]
      exact others
end

end Nesting

/-! Faithful: the marks of an expression end where it does, whatever follows, and show each
name as its tag. -/

section Faithful

variable {framework : Framework}

def marks (framework : Framework) (lines : List Line) : List TagMark :=
  lines.map fun line => line.tag.mark framework

theorem eq_of_append_append {before first second after : String}
    (same : before ++ first ++ after = before ++ second ++ after) : first = second := by
  rwa [← String.toList_inj, String.toList_append, String.toList_append, String.toList_append,
    String.toList_append, List.append_left_inj, List.append_right_inj, String.toList_inj] at same

theorem boxStyle_inj {first second : Direction}
    (same : boxStyle framework first = boxStyle framework second) : first = second := by
  have keyword : first.keyword = second.keyword := by
    cases framework with
    | html | vue | react => exact eq_of_append_append same
  revert keyword
  cases first <;> cases second <;> decide

theorem boxStyle_ne_empty (direction : Direction) : boxStyle framework direction ≠ "" := by
  obtain ⟨rest, begins⟩ := exists_boxStyle framework direction
  rintro empty
  simp [empty] at begins

section Marks

variable (framework) (depth : Nat)

theorem marks_entity (name : String) :
    marks framework (lines depth (.entity name)) = [.stands (tagName framework name)] :=
  rfl

theorem marks_group (direction : Direction) (items : List Expr) :
    marks framework (lines depth (.group direction items)) =
      .opens "div" (boxStyle framework direction) ::
        (marks framework (linesAll (depth + 1) items) ++ [.closes "div"]) := by
  rw [lines, marks, List.map_cons, List.map_append]
  rfl

theorem marks_container (name : String) (content : Expr) :
    marks framework (lines depth (.container name content)) =
      .opens (tagName framework name) "" ::
        (marks framework (lines (depth + 1) content) ++ [.closes (tagName framework name)]) := by
  rw [lines, marks, List.map_cons, List.map_append]
  rfl

theorem marks_cons (item : Expr) (items : List Expr) :
    marks framework (linesAll depth (item :: items)) =
      marks framework (lines depth item) ++ marks framework (linesAll depth items) :=
  List.map_append

theorem head?_marks (expression : Expr) (rest : List TagMark) (name : String) :
    (marks framework (lines depth expression) ++ rest).head? ≠ some (.closes name) := by
  cases expression with
  | entity other => simp [marks_entity]
  | group direction items => simp [marks_group]
  | container other content => simp [marks_container]

end Marks

mutual
theorem rename_eq_of_marks {depth deeper : Nat} {rest others : List TagMark} :
    (first second : Expr) →
    marks framework (lines depth first) ++ rest =
      marks framework (lines deeper second) ++ others →
    first.rename (tagName framework) = second.rename (tagName framework) ∧ rest = others
  | .entity name, .entity other, same => by
      simp only [marks_entity, List.singleton_append, List.cons.injEq, TagMark.stands.injEq] at same
      exact ⟨by rw [Expr.rename, same.1, Expr.rename], same.2⟩
  | .group direction items, .group other content, same => by
      simp only [marks_group, List.cons_append, List.append_assoc, List.cons.injEq,
        TagMark.opens.injEq, true_and] at same
      obtain ⟨inside, after⟩ := renameAll_eq_of_marks items content same.2
      rw [boxStyle_inj same.1]
      exact ⟨by rw [Expr.rename, inside, Expr.rename], after⟩
  | .container name inner, .container other content, same => by
      simp only [marks_container, List.cons_append, List.append_assoc, List.cons.injEq,
        TagMark.opens.injEq, and_true] at same
      obtain ⟨inside, after⟩ := rename_eq_of_marks inner content same.2
      exact ⟨by rw [Expr.rename, same.1, inside, Expr.rename], (List.cons.inj after).2⟩
  -- a container named as a group is closed as one: only the attributes tell them apart
  | .group direction _, .container _ _, same => by
      simp [marks_group, marks_container, boxStyle_ne_empty] at same
  | .container _ _, .group direction _, same => by
      simp [marks_group, marks_container, (boxStyle_ne_empty _).symm] at same
  | .entity _, .group _ _, same | .group _ _, .entity _, same => by
      simp [marks_entity, marks_group] at same
  | .entity _, .container _ _, same | .container _ _, .entity _, same => by
      simp [marks_entity, marks_container] at same

theorem renameAll_eq_of_marks {depth deeper : Nat} {rest others : List TagMark} {name : String} :
    (first second : List Expr) →
    marks framework (linesAll depth first) ++ .closes name :: rest =
      marks framework (linesAll deeper second) ++ .closes name :: others →
    Expr.renameAll (tagName framework) first = Expr.renameAll (tagName framework) second ∧
      rest = others
  | [], [], same => ⟨rfl, (List.cons.inj same).2⟩
  | item :: items, other :: content, same => by
      rw [marks_cons, marks_cons, List.append_assoc, List.append_assoc] at same
      obtain ⟨head, tail⟩ := rename_eq_of_marks item other same
      obtain ⟨inside, after⟩ := renameAll_eq_of_marks items content tail
      exact ⟨by rw [Expr.renameAll, head, inside, Expr.renameAll], after⟩
  | [], other :: content, same => by
      rw [marks_cons, List.append_assoc] at same
      exact absurd (congrArg List.head? same).symm (head?_marks framework deeper other _ name)
  | item :: items, [], same => by
      rw [marks_cons, List.append_assoc] at same
      exact absurd (congrArg List.head? same) (head?_marks framework depth item _ name)
end

theorem tagName_tagName (framework : Framework) {name : String} (plain : Name.IsPlain name) :
    tagName framework (tagName framework name) = tagName framework name := by
  have twice : capitalize (capitalize name) = capitalize name := by
    obtain ⟨head, tail, named, isHead, -⟩ := plain
    have once := toList_capitalize named isHead
    rw [← String.toList_inj, toList_capitalize once (Text.uppercase_of_isHead isHead).2, once,
      Char.toUpper_toUpper_eq_toUpper]
  cases framework with
  | html => rfl
  | vue | react => exact twice

/-- A tag of an expression with other names. -/
def Tag.rename (change : String → String) : Tag → Tag
  | .empty name => .empty (change name)
  | .start name => .start (change name)
  | .stop name => .stop (change name)
  | .startGroup direction => .startGroup direction
  | .stopGroup => .stopGroup

def Line.rename (change : String → String) (line : Line) : Line :=
  ⟨line.depth, line.tag.rename change⟩

mutual
theorem lines_rename (change : String → String) (depth : Nat) : (expression : Expr) →
    lines depth (expression.rename change) = (lines depth expression).map (Line.rename change)
  | .entity _ => rfl
  | .group _ children => by
      rw [Expr.rename, lines, lines, linesAll_rename change (depth + 1) children, List.map_cons,
        List.map_append]
      rfl
  | .container _ content => by
      rw [Expr.rename, lines, lines, lines_rename change (depth + 1) content, List.map_cons,
        List.map_append]
      rfl

theorem linesAll_rename (change : String → String) (depth : Nat) : (items : List Expr) →
    linesAll depth (Expr.renameAll change items) =
      (linesAll depth items).map (Line.rename change)
  | [] => rfl
  | item :: rest => by
      rw [Expr.renameAll, linesAll, linesAll, List.map_append, lines_rename change depth item,
        linesAll_rename change depth rest]
end

theorem print_rename {line : Line}
    (plain : ∀ name, line.tag.name? = some name → Name.IsPlain name) :
    (line.rename (tagName framework)).print framework = line.print framework := by
  obtain ⟨depth, tag⟩ := line
  have written : (tag.rename (tagName framework)).print framework = tag.print framework := by
    cases tag with
    | empty name | start name | stop name =>
        simp only [Tag.rename, print_empty, print_start, print_stop,
          tagName_tagName framework (plain name rfl)]
    | startGroup direction => rfl
    | stopGroup => rfl
  rw [Line.rename, Line.print, Line.print, written]

variable {first second : Expr}

theorem plain_of_mem_lines {depth : Nat} (plain : ∀ name ∈ first.references, Name.IsPlain name) :
    ∀ line ∈ lines depth first, ∀ name, line.tag.name? = some name → Name.IsPlain name := by
  intro line member name named
  exact plain name ((mem_names_lines name depth first).mp
    (List.mem_filterMap.mpr ⟨line, member, named⟩))

/-- The lines show a name as its tag only. -/
theorem markup_rename (depth : Nat) (plain : ∀ name ∈ first.references, Name.IsPlain name) :
    markup framework depth (some (first.rename (tagName framework))) =
      markup framework depth (some first) := by
  rw [markup, markup, Option.elim_some, Option.elim_some, lines_rename, List.map_map]
  exact List.map_congr_left fun line member => print_rename (plain_of_mem_lines plain line member)

theorem filterMap_markup (depth : Nat) (plain : ∀ name ∈ first.references, Name.IsPlain name) :
    ((markup framework depth (some first)).map unindented).filterMap TagMark.ofText? =
      marks framework (lines depth first) := by
  rw [markup, Option.elim_some, List.map_map, List.filterMap_map, marks, ← List.filterMap_eq_map]
  apply List.filterMap_congr
  intro line member
  rw [Function.comp_apply, Function.comp_apply, (span_print framework line).2,
    ofText?_print (plain_of_mem_lines plain line member), Function.comp_apply]

/-- The tags tell the expression, up to what the framework makes of its names. -/
theorem rename_eq_of_unindented {depth deeper : Nat}
    (plain : ∀ name ∈ first.references, Name.IsPlain name)
    (plainOther : ∀ name ∈ second.references, Name.IsPlain name)
    (same : (markup framework depth (some first)).map unindented =
      (markup framework deeper (some second)).map unindented) :
    first.rename (tagName framework) = second.rename (tagName framework) := by
  have read := congrArg (List.filterMap TagMark.ofText?) same
  rw [filterMap_markup depth plain, filterMap_markup deeper plainOther] at read
  rw [← List.append_nil (marks framework (lines depth first)),
    ← List.append_nil (marks framework (lines deeper second))] at read
  exact (rename_eq_of_marks first second read).1

theorem markup_eq_iff (depth : Nat)
    (plain : ∀ name ∈ first.references, Name.IsPlain name)
    (plainOther : ∀ name ∈ second.references, Name.IsPlain name) :
    markup framework depth (some first) = markup framework depth (some second) ↔
      first.rename (tagName framework) = second.rename (tagName framework) := by
  constructor
  · intro same
    exact rename_eq_of_unindented plain plainOther (congrArg (List.map unindented) same)
  · intro same
    rw [← markup_rename depth plain, same, markup_rename depth plainOther]

end Faithful

/-- Markup is well nested and faithful. A page tells every expression from every other, and
components tell those apart whose names differ in more than their first letters' case; the
tags alone, at whatever depth, tell as much as the lines. -/
theorem markup_nested_faithful (framework : Framework) (depth : Nat) (first second : Expr)
    (plain : ∀ name ∈ first.references, Name.IsPlain name)
    (plainOther : ∀ name ∈ second.references, Name.IsPlain name) :
    let shown := markup framework depth (some first)
    let other := markup framework depth (some second)
    WellNested depth shown ∧
    (framework = .html → (shown = other ↔ first = second)) ∧
    (framework ≠ .html →
      (shown = other ↔ first.rename capitalize = second.rename capitalize)) ∧
    ∀ deeper, shown.map unindented = (markup framework deeper (some second)).map unindented →
      shown = other := by
  intro shown other
  have told : shown = other ↔
      first.rename (tagName framework) = second.rename (tagName framework) :=
    markup_eq_iff depth plain plainOther
  refine ⟨foldlM_lines [] first plain, ?page, ?components, ?tags⟩
  case page =>
    rintro rfl
    have plainName : ∀ name, tagName .html name = name := fun _ => rfl
    rw [told, Expr.rename_eq_self plainName, Expr.rename_eq_self plainName]
  case components =>
    intro component
    rw [told, funext (tagName_of_component component)]
  case tags =>
    intro deeper same
    exact told.mpr (rename_eq_of_unindented plain plainOther same)

/-- A container that shares the closing tag of the group in it, with an empty group inside. -/
theorem markup_nested_faithful_div :
    let first := Expr.container "div" (.group .column [.entity "a", .group .row []])
    let second := Expr.container "Div" (.group .column [.entity "A", .group .row []])
    (∀ name ∈ first.references, Name.IsPlain name) ∧
    (∀ name ∈ second.references, Name.IsPlain name) ∧
    WellNested 1 (markup .html 1 (some first)) ∧
    markup .html 1 (some first) ≠ markup .html 1 (some second) ∧
    markup .vue 2 (some first) = markup .vue 2 (some second) := by
  intro first second
  have plain : ∀ name ∈ first.references, Name.IsPlain name := by
    simp only [first, Expr.references, Expr.referencesAll, List.append_nil, List.mem_cons,
      List.not_mem_nil, or_false]
    rintro _ (rfl | rfl)
    · exact isPlain_div
    · exact ⟨'a', [], by simp, rfl, by simp⟩
  have plainOther : ∀ name ∈ second.references, Name.IsPlain name := by
    simp only [second, Expr.references, Expr.referencesAll, List.append_nil, List.mem_cons,
      List.not_mem_nil, or_false]
    rintro _ (rfl | rfl)
    · exact ⟨'D', ['i', 'v'], by simp, rfl, by simp [Name.isTail]⟩
    · exact ⟨'A', [], by simp, rfl, by simp⟩
  have different : first ≠ second := by simp [first, second]
  have recased : first.rename capitalize = second.rename capitalize := by
    have div : capitalize "div" = capitalize "Div" := by cbv
    have letter : capitalize "a" = capitalize "A" := by cbv
    simp [first, second, Expr.rename, Expr.renameAll, div, letter]
  obtain ⟨nested, page, -, -⟩ := markup_nested_faithful .html 1 first second plain plainOther
  obtain ⟨-, -, components, -⟩ := markup_nested_faithful .vue 2 first second plain plainOther
  have vue : markup .vue 2 (some first) = markup .vue 2 (some second) :=
    (components (by decide)).mpr recased
  exact ⟨plain, plainOther, nested, mt (page rfl).mp different, vue⟩

end Component

end Wireframe
