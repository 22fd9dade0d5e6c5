import Wireframe.Expr.Phrase
import Wireframe.Proofs.Except
import Wireframe.Proofs.Expr.Join

/-! The grammar of layout text and its meaning, stated without the reader. A phrase is
a derivation if it juxtaposes terms only where that is licensed; what it denotes is a
relation, which no phrase with an illegal content has. -/

namespace Wireframe

mutual
/-- Terms stand side by side without a sign only `inside` the content of some term;
parentheses keep the setting of what surrounds them. -/
def Primary.Licensed (inside : Bool) : Primary → Prop
  | .name _ _ => True
  | .parens _ body _ => body.Licensed inside

def Term.Licensed (inside : Bool) : Term → Prop
  | .bare head => head.Licensed inside
  | .suffixed target _ content _ => target.Licensed inside ∧ content.Licensed true

def Row.Licensed (inside : Bool) : Row → Prop
  | .single first => first.Licensed inside
  | .plus init _ last => init.Licensed inside ∧ last.Licensed inside
  | .beside init last => inside = true ∧ init.Licensed inside ∧ last.Licensed inside

def Column.Licensed (inside : Bool) : Column → Prop
  | .single first => first.Licensed inside
  | .slash init _ last => init.Licensed inside ∧ last.Licensed inside
end

/-- A derivation of lexemes as a whole text. -/
structure Column.Derives (column : Column) (lexemes : List Lexeme) : Prop where
  licensed : column.Licensed false
  spells : column.lexemes = lexemes

/-- The lexemes that have a derivation. -/
def Sentence (lexemes : List Lexeme) : Prop :=
  ∃ column : Column, column.Derives lexemes

/-- The items of a group, where those that are groups of its direction give way to
their children. -/
inductive Expr.Spliced (direction : Direction) : List Expr → List Expr → Prop
  | nil : Spliced direction [] []
  | inner {rest parts : List Expr} (children : List Expr) :
      Spliced direction rest parts →
      Spliced direction (.group direction children :: rest) (children ++ parts)
  | other {rest parts : List Expr} (item : Expr) :
      (∀ children, item ≠ .group direction children) →
      Spliced direction rest parts → Spliced direction (item :: rest) (item :: parts)

/-- One item is itself, and two or more are a group. -/
inductive Expr.Gathers (direction : Direction) : List Expr → Expr → Prop
  | one (item : Expr) : Gathers direction [item] item
  | several {items parts : List Expr} :
      2 ≤ items.length → Spliced direction items parts →
      Gathers direction items (.group direction parts)

mutual
/-- What phrases denote. A term may have one content at most, and then its primary
denotes a plain entity. -/
inductive Primary.Denotes : Primary → Expr → Prop
  | name (text : String) (span : Text.Span) : Primary.Denotes (.name text span) (.entity text)
  | parens {body : Column} {expression : Expr} (opener closer : Text.Span) :
      Column.Denotes body expression →
      Primary.Denotes (.parens opener body closer) expression

inductive Term.Denotes : Term → Expr → Prop
  | bare {head : Primary} {expression : Expr} :
      Primary.Denotes head expression → Term.Denotes (.bare head) expression
  | content {head : Primary} {name : String} {body : Column} {expression : Expr}
      (opener closer : Text.Span) :
      Primary.Denotes head (.entity name) → Column.Denotes body expression →
      Term.Denotes (.suffixed (.bare head) opener body closer) (.container name expression)

/-- What the terms of a row denote, in order. -/
inductive Row.Lists : Row → List Expr → Prop
  | single {first : Term} {expression : Expr} :
      Term.Denotes first expression → Row.Lists (.single first) [expression]
  | plus {init : Row} {items : List Expr} {last : Term} {expression : Expr}
      (sign : Text.Span) :
      Row.Lists init items → Term.Denotes last expression →
      Row.Lists (.plus init sign last) (items ++ [expression])
  | beside {init : Row} {items : List Expr} {last : Term} {expression : Expr} :
      Row.Lists init items → Term.Denotes last expression →
      Row.Lists (.beside init last) (items ++ [expression])

/-- What the rows of a column denote, in order. -/
inductive Column.Lists : Column → List Expr → Prop
  | single {first : Row} {items : List Expr} {expression : Expr} :
      Row.Lists first items → Expr.Gathers .row items expression →
      Column.Lists (.single first) [expression]
  | slash {init : Column} {rows : List Expr} {last : Row} {items : List Expr}
      {expression : Expr} (sign : Text.Span) :
      Column.Lists init rows → Row.Lists last items →
      Expr.Gathers .row items expression →
      Column.Lists (.slash init sign last) (rows ++ [expression])

inductive Column.Denotes : Column → Expr → Prop
  | gather {column : Column} {rows : List Expr} {expression : Expr} :
      Column.Lists column rows → Expr.Gathers .column rows expression →
      Column.Denotes column expression
end

mutual
/-- Phrases in which every term with a content has only that one, and a primary that
denotes a plain entity. -/
def Primary.Targeted : Primary → Prop
  | .name _ _ => True
  | .parens _ body _ => body.Targeted

def Term.Targeted : Term → Prop
  | .bare head => head.Targeted
  | .suffixed target _ content _ =>
      (∃ head name, target = .bare head ∧ head.Denotes (.entity name)) ∧ content.Targeted

def Row.Targeted : Row → Prop
  | .single first => first.Targeted
  | .plus init _ last => init.Targeted ∧ last.Targeted
  | .beside init last => init.Targeted ∧ last.Targeted

def Column.Targeted : Column → Prop
  | .single first => first.Targeted
  | .slash init _ last => init.Targeted ∧ last.Targeted
end

namespace Expr

theorem spliced_iff {direction : Direction} {items parts : List Expr} :
    Spliced direction items parts ↔ parts = items.flatMap (splice direction) := by
  constructor
  · intro spliced
    induction spliced with
    | nil => rfl
    | inner children _ ih => rw [List.flatMap_cons, splice_group, ih]
    | other item notGroup _ ih =>
        have different : ¬ item.IsGroup direction :=
          fun ⟨children, equal⟩ => notGroup children equal
        rw [List.flatMap_cons, splice_eq_singleton different, ih]
        rfl
  · intro equal
    subst equal
    induction items with
    | nil => exact .nil
    | cons item rest ih =>
        rw [List.flatMap_cons]
        by_cases grouped : item.IsGroup direction
        · obtain ⟨children, rfl⟩ := grouped
          rw [splice_group]
          exact .inner children ih
        · rw [splice_eq_singleton grouped]
          exact .other item (fun children equal => grouped ⟨children, equal⟩) ih

theorem gathers_iff {direction : Direction} {items : List Expr} {whole : Expr} :
    Gathers direction items whole ↔ items ≠ [] ∧ whole = join direction items := by
  constructor
  · intro gathers
    cases gathers with
    | one => exact ⟨List.cons_ne_nil _ _, rfl⟩
    | several two spliced =>
        rw [spliced_iff.mp spliced, join_of_two_le two]
        refine ⟨?_, rfl⟩
        rintro rfl
        exact absurd two (by decide)
  · intro gathers
    obtain ⟨nonempty, rfl⟩ := gathers
    cases eq_singleton_or_two_le nonempty with
    | inl single =>
        obtain ⟨item, rfl⟩ := single
        exact .one item
    | inr two =>
        rw [join_of_two_le two]
        exact .several two (spliced_iff.mpr rfl)

end Expr

/-! Reading a phrase gives what it denotes. -/

private theorem snoc_eq_ok_iff {first : Except ε (List α)} {last : Except ε β}
    {change : β → α} {whole : List α} :
    (do let items ← first; return items ++ [change (← last)]) = .ok whole ↔
      ∃ items item, first = .ok items ∧ last = .ok item ∧ whole = items ++ [change item] := by
  cases first with
  | error cause => simp [bind, Except.bind]
  | ok items =>
      cases last with
      | error cause => simp [bind, Except.bind]
      | ok item => simp [bind, Except.bind, pure, Except.pure, eq_comm]

theorem Row.Lists.ne_nil {row : Row} {items : List Expr} (lists : row.Lists items) :
    items ≠ [] := by
  cases lists <;> simp

theorem Column.Lists.ne_nil {column : Column} {rows : List Expr}
    (lists : column.Lists rows) : rows ≠ [] := by
  cases lists <;> simp

theorem Row.Lists.gathers {row : Row} {items : List Expr} (lists : row.Lists items) :
    Expr.Gathers .row items (Expr.join .row items) :=
  Expr.gathers_iff.mpr ⟨lists.ne_nil, rfl⟩

theorem Column.denotes_iff {column : Column} {expression : Expr} :
    column.Denotes expression ↔
      ∃ rows, column.Lists rows ∧ expression = Expr.join .column rows := by
  constructor
  · intro denotes
    obtain ⟨lists, gathers⟩ := denotes
    exact ⟨_, lists, (Expr.gathers_iff.mp gathers).2⟩
  · intro denotes
    obtain ⟨rows, lists, rfl⟩ := denotes
    exact .gather lists (Expr.gathers_iff.mpr ⟨lists.ne_nil, rfl⟩)

mutual
theorem Primary.exists_denotes_iff : (primary : Primary) →
    ((∃ expression, primary.Denotes expression) ↔ primary.Targeted)
  | .name text span => ⟨fun _ => trivial, fun _ => ⟨_, .name text span⟩⟩
  | .parens opener body closer => by
      rw [Primary.Targeted, ← body.exists_denotes_iff]
      constructor
      · intro denoted
        obtain ⟨expression, denotes⟩ := denoted
        cases denotes with
        | parens _ _ denotes => exact ⟨expression, denotes⟩
      · intro denoted
        obtain ⟨expression, denotes⟩ := denoted
        exact ⟨expression, .parens opener closer denotes⟩

theorem Term.exists_denotes_iff : (term : Term) →
    ((∃ expression, term.Denotes expression) ↔ term.Targeted)
  | .bare head => by
      rw [Term.Targeted, ← head.exists_denotes_iff]
      constructor
      · intro denoted
        obtain ⟨expression, denotes⟩ := denoted
        cases denotes with
        | bare denotes => exact ⟨expression, denotes⟩
      · intro denoted
        obtain ⟨expression, denotes⟩ := denoted
        exact ⟨expression, .bare denotes⟩
  | .suffixed target opener body closer => by
      rw [Term.Targeted, ← body.exists_denotes_iff]
      constructor
      · intro denoted
        obtain ⟨expression, denotes⟩ := denoted
        cases denotes with
        | content _ _ headDenotes bodyDenotes =>
            exact ⟨⟨_, _, rfl, headDenotes⟩, _, bodyDenotes⟩
      · intro denoted
        obtain ⟨⟨head, name, rfl, headDenotes⟩, expression, bodyDenotes⟩ := denoted
        exact ⟨_, .content opener closer headDenotes bodyDenotes⟩

theorem Row.exists_lists_iff : (row : Row) → ((∃ items, row.Lists items) ↔ row.Targeted)
  | .single first => by
      rw [Row.Targeted, ← first.exists_denotes_iff]
      constructor
      · intro denoted
        obtain ⟨items, lists⟩ := denoted
        cases lists with
        | single denotes => exact ⟨_, denotes⟩
      · intro denoted
        obtain ⟨expression, denotes⟩ := denoted
        exact ⟨_, .single denotes⟩
  | .plus init sign last => by
      rw [Row.Targeted, ← init.exists_lists_iff, ← last.exists_denotes_iff]
      constructor
      · intro denoted
        obtain ⟨items, lists⟩ := denoted
        cases lists with
        | plus _ lists denotes => exact ⟨⟨_, lists⟩, _, denotes⟩
      · intro denoted
        obtain ⟨⟨items, lists⟩, expression, denotes⟩ := denoted
        exact ⟨_, .plus sign lists denotes⟩
  | .beside init last => by
      rw [Row.Targeted, ← init.exists_lists_iff, ← last.exists_denotes_iff]
      constructor
      · intro denoted
        obtain ⟨items, lists⟩ := denoted
        cases lists with
        | beside lists denotes => exact ⟨⟨_, lists⟩, _, denotes⟩
      · intro denoted
        obtain ⟨⟨items, lists⟩, expression, denotes⟩ := denoted
        exact ⟨_, .beside lists denotes⟩

theorem Column.exists_lists_iff : (column : Column) →
    ((∃ rows, column.Lists rows) ↔ column.Targeted)
  | .single first => by
      rw [Column.Targeted, ← first.exists_lists_iff]
      constructor
      · intro denoted
        obtain ⟨rows, lists⟩ := denoted
        cases lists with
        | single lists _ => exact ⟨_, lists⟩
      · intro denoted
        obtain ⟨items, lists⟩ := denoted
        exact ⟨_, .single lists lists.gathers⟩
  | .slash init sign last => by
      rw [Column.Targeted, ← init.exists_lists_iff, ← last.exists_lists_iff]
      constructor
      · intro denoted
        obtain ⟨rows, lists⟩ := denoted
        cases lists with
        | slash _ listsInit lists _ => exact ⟨⟨_, listsInit⟩, _, lists⟩
      · intro denoted
        obtain ⟨⟨rows, listsInit⟩, items, lists⟩ := denoted
        exact ⟨_, .slash sign listsInit lists lists.gathers⟩

theorem Column.exists_denotes_iff : (column : Column) →
    ((∃ expression, column.Denotes expression) ↔ column.Targeted)
  | column => by
      rw [← column.exists_lists_iff]
      simp only [Column.denotes_iff]
      constructor
      · intro denoted
        obtain ⟨expression, rows, lists, _⟩ := denoted
        exact ⟨rows, lists⟩
      · intro denoted
        obtain ⟨rows, lists⟩ := denoted
        exact ⟨_, rows, lists, rfl⟩
end

mutual
theorem Primary.denote_eq_ok_iff : (primary : Primary) → {expression : Expr} →
    (primary.denote = .ok expression ↔ primary.Denotes expression)
  | .name text span, expression => by
      constructor
      · intro read
        cases read
        exact .name text span
      · intro denotes
        cases denotes
        rfl
  | .parens opener body closer, expression => by
      simp only [Primary.denote, map_eq_ok_iff, body.denoteRows_eq_ok_iff]
      rw [← Column.denotes_iff]
      constructor
      · exact .parens opener closer
      · intro denotes
        cases denotes
        assumption

theorem Term.denoteIn_eq_ok_iff (whole : Text.Span) : (term : Term) → {expression : Expr} →
    (term.denoteIn whole = .ok expression ↔ term.Denotes expression)
  | .bare head, expression => by
      rw [Term.denoteIn, head.denote_eq_ok_iff]
      constructor
      · exact .bare
      · intro denotes
        cases denotes
        assumption
  | .suffixed target opener body closer, expression => by
      simp only [Term.denoteIn, bind_eq_ok_iff, target.denoteIn_eq_ok_iff whole]
      constructor
      · intro read
        obtain ⟨owner, ownerDenotes, readBody⟩ := read
        cases owner with
        | entity name =>
            obtain ⟨rows, readRows, equal⟩ := bind_eq_ok_iff.mp readBody
            cases equal
            have lists := body.denoteRows_eq_ok_iff.mp readRows
            -- a term with a content denotes a container, so the target is bare
            cases ownerDenotes with
            | bare headDenotes =>
                exact .content opener closer headDenotes
                  (Column.denotes_iff.mpr ⟨rows, lists, rfl⟩)
        | group direction children => cases readBody
        | container name content => cases readBody
      · intro denotes
        cases denotes with
        | content _ _ headDenotes bodyDenotes =>
            obtain ⟨rows, lists, rfl⟩ := Column.denotes_iff.mp bodyDenotes
            exact ⟨_, .bare headDenotes,
              bind_eq_ok_iff.mpr ⟨rows, body.denoteRows_eq_ok_iff.mpr lists, rfl⟩⟩

theorem Row.denoteTerms_eq_ok_iff : (row : Row) → {items : List Expr} →
    (row.denoteTerms = .ok items ↔ row.Lists items)
  | .single first, items => by
      simp only [Row.denoteTerms, bind_eq_ok_iff, first.denoteIn_eq_ok_iff first.span]
      constructor
      · intro read
        obtain ⟨expression, denotes, equal⟩ := read
        cases equal
        exact .single denotes
      · intro lists
        cases lists with
        | single denotes => exact ⟨_, denotes, rfl⟩
  | .plus init sign last, items => by
      simp only [Row.denoteTerms, snoc_eq_ok_iff, init.denoteTerms_eq_ok_iff,
        last.denoteIn_eq_ok_iff last.span]
      constructor
      · intro read
        obtain ⟨before, expression, lists, denotes, rfl⟩ := read
        exact .plus sign lists denotes
      · intro lists
        cases lists with
        | plus _ lists denotes => exact ⟨_, _, lists, denotes, rfl⟩
  | .beside init last, items => by
      simp only [Row.denoteTerms, snoc_eq_ok_iff, init.denoteTerms_eq_ok_iff,
        last.denoteIn_eq_ok_iff last.span]
      constructor
      · intro read
        obtain ⟨before, expression, lists, denotes, rfl⟩ := read
        exact .beside lists denotes
      · intro lists
        cases lists with
        | beside lists denotes => exact ⟨_, _, lists, denotes, rfl⟩

theorem Column.denoteRows_eq_ok_iff : (column : Column) → {rows : List Expr} →
    (column.denoteRows = .ok rows ↔ column.Lists rows)
  | .single first, rows => by
      simp only [Column.denoteRows, bind_eq_ok_iff, first.denoteTerms_eq_ok_iff]
      constructor
      · intro read
        obtain ⟨items, lists, equal⟩ := read
        cases equal
        exact .single lists lists.gathers
      · intro lists
        cases lists with
        | single lists gathers =>
            obtain ⟨_, rfl⟩ := Expr.gathers_iff.mp gathers
            exact ⟨_, lists, rfl⟩
  | .slash init sign last, rows => by
      simp only [Column.denoteRows, snoc_eq_ok_iff, init.denoteRows_eq_ok_iff,
        last.denoteTerms_eq_ok_iff]
      constructor
      · intro read
        obtain ⟨before, items, listsBefore, lists, rfl⟩ := read
        exact .slash sign listsBefore lists lists.gathers
      · intro lists
        cases lists with
        | slash _ listsBefore lists gathers =>
            obtain ⟨_, rfl⟩ := Expr.gathers_iff.mp gathers
            exact ⟨_, _, listsBefore, lists, rfl⟩
end

theorem Column.denote_eq_ok_iff (column : Column) {expression : Expr} :
    column.denote = .ok expression ↔ column.Denotes expression := by
  simp only [Column.denote, map_eq_ok_iff, column.denoteRows_eq_ok_iff, Column.denotes_iff]

end Wireframe
