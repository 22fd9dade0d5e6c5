import Mathlib.Tactic.Tauto
import Wireframe.Proofs.Expr.Join
import Wireframe.Proofs.Grammar.Reading

/-! Parentheses that say nothing. A name, some consecutive terms of a row or some consecutive rows
of a column may be put in parentheses wherever they stand, and the phrase denotes the same. -/

namespace Wireframe

open Text

namespace Lexeme

/-- The sign between two terms, or nothing. -/
def ofSign (sign : Option Span) : List Lexeme :=
  sign.elim [] fun span => [⟨.plus, span⟩]

def inParens (opener closer : Span) (lexemes : List Lexeme) : List Lexeme :=
  ⟨.openParen, opener⟩ :: (lexemes ++ [⟨.closeParen, closer⟩])

end Lexeme

/-! Consecutive terms of a row. -/

namespace Row

/-- Two rows as one, with a sign between them or none. -/
def append (init : Row) (sign : Option Span) : Row → Row
  | .single first => Lead.row ⟨none, some (init, sign)⟩ first
  | .plus later joint last => .plus (init.append sign later) joint last
  | .beside later last => .beside (init.append sign later) last

variable {inside : Bool} (init : Row) (sign : Option Span)

theorem lexemes_append (later : Row) :
    (init.append sign later).lexemes = init.lexemes ++ Lexeme.ofSign sign ++ later.lexemes := by
  fun_induction append init sign later with
  | case1 first =>
      cases sign with
      | none => simp [Lead.row, Row.lexemes, Lexeme.ofSign]
      | some span => simp [Lead.row, Row.lexemes, Lexeme.ofSign]
  | case2 later joint last ih => simp [Row.lexemes, ih]
  | case3 later last ih => simp [Row.lexemes, ih]

theorem licensed_append (later : Row) : (init.append sign later).Licensed inside ↔
    init.Licensed inside ∧ (sign = none → inside = true) ∧ later.Licensed inside := by
  fun_induction append init sign later with
  | case1 first =>
      cases sign with
      | none => simp [Lead.row, Row.Licensed, and_left_comm]
      | some span => simp [Lead.row, Row.Licensed]
  | case2 later joint last ih => simp [Row.Licensed, ih, and_assoc]
  | case3 later last ih =>
      simp only [Row.Licensed, ih]
      tauto

theorem lists_append_iff (later : Row) {items : List Expr} :
    (init.append sign later).Lists items ↔
      ∃ front back, init.Lists front ∧ later.Lists back ∧ items = front ++ back := by
  fun_induction append init sign later generalizing items with
  | case1 first =>
      constructor
      · intro lists
        cases sign with
        | none =>
            cases lists with
            | beside lists denotes => exact ⟨_, _, lists, .single denotes, rfl⟩
        | some span =>
            cases lists with
            | plus _ lists denotes => exact ⟨_, _, lists, .single denotes, rfl⟩
      · rintro ⟨front, back, lists, listsLater, rfl⟩
        cases listsLater with
        | single denotes =>
            cases sign with
            | none => exact .beside lists denotes
            | some span => exact .plus span lists denotes
  | case2 later joint last ih =>
      constructor
      · intro lists
        cases lists with
        | plus _ lists denotes =>
            obtain ⟨front, back, listsInit, listsLater, rfl⟩ := ih.mp lists
            exact ⟨front, _, listsInit, .plus joint listsLater denotes, by simp⟩
      · rintro ⟨front, back, listsInit, listsLater, rfl⟩
        cases listsLater with
        | plus _ listsLater denotes =>
            have lists := ih.mpr ⟨front, _, listsInit, listsLater, rfl⟩
            simpa using Row.Lists.plus joint lists denotes
  | case3 later last ih =>
      constructor
      · intro lists
        cases lists with
        | beside lists denotes =>
            obtain ⟨front, back, listsInit, listsLater, rfl⟩ := ih.mp lists
            exact ⟨front, _, listsInit, .beside listsLater denotes, by simp⟩
      · rintro ⟨front, back, listsInit, listsLater, rfl⟩
        cases listsLater with
        | beside listsLater denotes =>
            have lists := ih.mpr ⟨front, _, listsInit, listsLater, rfl⟩
            simpa using Row.Lists.beside lists denotes

/-- What stands around some consecutive terms of a row. -/
structure Context where
  before : Option (Row × Option Span)
  after : Option (Option Span × Row)

namespace Context

def fill (context : Context) (run : Row) : Row :=
  let begun := context.before.elim run fun (init, sign) => init.append sign run
  context.after.elim begun fun (sign, later) => begun.append sign later

def front (context : Context) : List Lexeme :=
  context.before.elim [] fun (init, sign) => init.lexemes ++ Lexeme.ofSign sign

def back (context : Context) : List Lexeme :=
  context.after.elim [] fun (sign, later) => Lexeme.ofSign sign ++ later.lexemes

variable (context : Context) {run : Row}

theorem lexemes_fill (run : Row) :
    (context.fill run).lexemes = context.front ++ run.lexemes ++ context.back := by
  rcases context with ⟨_ | ⟨init, sign⟩, _ | ⟨joint, later⟩⟩ <;>
    simp [fill, front, back, lexemes_append]

theorem licensed_fill (licensed : (context.fill run).Licensed inside) :
    run.Licensed inside ∧
      ∀ other : Row, other.Licensed inside → (context.fill other).Licensed inside := by
  rcases context with ⟨_ | ⟨init, sign⟩, _ | ⟨joint, later⟩⟩ <;>
    simp only [fill, Option.elim, licensed_append] at licensed ⊢ <;> tauto

theorem lists_fill {items : List Expr} (lists : (context.fill run).Lists items) :
    ∃ front middle back, run.Lists middle ∧ items = front ++ middle ++ back ∧
      ∀ {other others}, Row.Lists other others →
        (context.fill other).Lists (front ++ others ++ back) := by
  rcases context with ⟨_ | ⟨init, sign⟩, _ | ⟨joint, later⟩⟩
  · exact ⟨[], items, [], lists, by simp, fun listsOther => by simpa [fill] using listsOther⟩
  · obtain ⟨middle, back, listsRun, listsLater, rfl⟩ := (lists_append_iff _ _ _).mp lists
    exact ⟨[], middle, back, listsRun, rfl, fun listsOther =>
      (lists_append_iff _ _ _).mpr ⟨_, _, listsOther, listsLater, rfl⟩⟩
  · obtain ⟨front, middle, listsInit, listsRun, rfl⟩ := (lists_append_iff _ _ _).mp lists
    exact ⟨front, middle, [], listsRun, by simp, fun listsOther =>
      (lists_append_iff _ _ _).mpr ⟨_, _, listsInit, listsOther, by simp⟩⟩
  · obtain ⟨begun, back, listsBegun, listsLater, rfl⟩ := (lists_append_iff _ _ _).mp lists
    obtain ⟨front, middle, listsInit, listsRun, rfl⟩ := (lists_append_iff _ _ _).mp listsBegun
    refine ⟨front, middle, back, listsRun, rfl, fun listsOther => ?_⟩
    have begins := (lists_append_iff init sign _).mpr ⟨_, _, listsInit, listsOther, rfl⟩
    exact (lists_append_iff _ _ _).mpr ⟨_, _, begins, listsLater, rfl⟩

end Context

end Row

/-! Consecutive rows of a column. -/

namespace Column

/-- Two columns as one. -/
def append (init : Column) (sign : Span) : Column → Column
  | .single first => .slash init sign first
  | .slash later joint last => .slash (init.append sign later) joint last

variable {inside : Bool} (init : Column) (sign : Span)

theorem lexemes_append (later : Column) :
    (init.append sign later).lexemes = init.lexemes ++ ⟨.slash, sign⟩ :: later.lexemes := by
  fun_induction append init sign later with
  | case1 first => simp [Column.lexemes]
  | case2 later joint last ih => simp [Column.lexemes, ih]

theorem licensed_append (later : Column) : (init.append sign later).Licensed inside ↔
    init.Licensed inside ∧ later.Licensed inside := by
  fun_induction append init sign later with
  | case1 first => simp [Column.Licensed]
  | case2 later joint last ih => simp [Column.Licensed, ih, and_assoc]

theorem lists_append_iff (later : Column) {rows : List Expr} :
    (init.append sign later).Lists rows ↔
      ∃ front back, init.Lists front ∧ later.Lists back ∧ rows = front ++ back := by
  fun_induction append init sign later generalizing rows with
  | case1 first =>
      constructor
      · intro lists
        cases lists with
        | slash _ lists items gathers => exact ⟨_, _, lists, .single items gathers, rfl⟩
      · rintro ⟨front, back, lists, listsLater, rfl⟩
        cases listsLater with
        | single items gathers => exact .slash sign lists items gathers
  | case2 later joint last ih =>
      constructor
      · intro lists
        cases lists with
        | slash _ lists items gathers =>
            obtain ⟨front, back, listsInit, listsLater, rfl⟩ := ih.mp lists
            exact ⟨front, _, listsInit, .slash joint listsLater items gathers, by simp⟩
      · rintro ⟨front, back, listsInit, listsLater, rfl⟩
        cases listsLater with
        | slash _ listsLater items gathers =>
            have lists := ih.mpr ⟨front, _, listsInit, listsLater, rfl⟩
            simpa using Column.Lists.slash joint lists items gathers

/-- What stands around some consecutive rows of a column. -/
structure Context where
  before : Option (Column × Span)
  after : Option (Span × Column)

namespace Context

def fill (context : Context) (run : Column) : Column :=
  let begun := context.before.elim run fun (init, sign) => init.append sign run
  context.after.elim begun fun (sign, later) => begun.append sign later

def front (context : Context) : List Lexeme :=
  context.before.elim [] fun (init, sign) => init.lexemes ++ [⟨.slash, sign⟩]

def back (context : Context) : List Lexeme :=
  context.after.elim [] fun (sign, later) => ⟨.slash, sign⟩ :: later.lexemes

variable (context : Context) {run : Column}

theorem lexemes_fill (run : Column) :
    (context.fill run).lexemes = context.front ++ run.lexemes ++ context.back := by
  rcases context with ⟨_ | ⟨init, sign⟩, _ | ⟨joint, later⟩⟩ <;>
    simp [fill, front, back, lexemes_append]

theorem licensed_fill (licensed : (context.fill run).Licensed inside) :
    run.Licensed inside ∧
      ∀ other : Column, other.Licensed inside → (context.fill other).Licensed inside := by
  rcases context with ⟨_ | ⟨init, sign⟩, _ | ⟨joint, later⟩⟩ <;>
    simp only [fill, Option.elim, licensed_append] at licensed ⊢ <;> tauto

theorem lists_fill {rows : List Expr} (lists : (context.fill run).Lists rows) :
    ∃ front middle back, run.Lists middle ∧ rows = front ++ middle ++ back ∧
      ∀ {other others}, Column.Lists other others →
        (context.fill other).Lists (front ++ others ++ back) := by
  rcases context with ⟨_ | ⟨init, sign⟩, _ | ⟨joint, later⟩⟩
  · exact ⟨[], rows, [], lists, by simp, fun listsOther => by simpa [fill] using listsOther⟩
  · obtain ⟨middle, back, listsRun, listsLater, rfl⟩ := (lists_append_iff _ _ _).mp lists
    exact ⟨[], middle, back, listsRun, rfl, fun listsOther =>
      (lists_append_iff _ _ _).mpr ⟨_, _, listsOther, listsLater, rfl⟩⟩
  · obtain ⟨front, middle, listsInit, listsRun, rfl⟩ := (lists_append_iff _ _ _).mp lists
    exact ⟨front, middle, [], listsRun, by simp, fun listsOther =>
      (lists_append_iff _ _ _).mpr ⟨_, _, listsInit, listsOther, by simp⟩⟩
  · obtain ⟨begun, back, listsBegun, listsLater, rfl⟩ := (lists_append_iff _ _ _).mp lists
    obtain ⟨front, middle, listsInit, listsRun, rfl⟩ := (lists_append_iff _ _ _).mp listsBegun
    refine ⟨front, middle, back, listsRun, rfl, fun listsOther => ?_⟩
    have begins := (lists_append_iff init sign _).mpr ⟨_, _, listsInit, listsOther, rfl⟩
    exact (lists_append_iff _ _ _).mpr ⟨_, _, begins, listsLater, rfl⟩

end Context

end Column

/-- Some of the items may be gathered first. -/
theorem Expr.Gathers.part {direction : Direction} {front items back : List Expr} {part whole : Expr}
    (gathers : Gathers direction (front ++ items ++ back) whole)
    (inner : Gathers direction items part) :
    Gathers direction (front ++ [part] ++ back) whole := by
  obtain ⟨nonempty, rfl⟩ := gathers_iff.mp inner
  obtain ⟨-, rfl⟩ := gathers_iff.mp gathers
  exact gathers_iff.mpr ⟨by simp, (join_append_join nonempty).symm⟩

/-! The parts of a phrase that parentheses may be put around. -/

mutual
/-- `part` stands between `front` and `back` in the lexemes of a phrase, and it is a name, some
consecutive terms of a row or some consecutive rows of a column, at any depth. -/
inductive Primary.HasPart : Primary → List Lexeme → List Lexeme → List Lexeme → Prop
  | name (text : String) (span : Span) :
      Primary.HasPart (.name text span) [] [⟨.name text, span⟩] []
  | body {body : Column} {front part back : List Lexeme} (opener closer : Span) :
      Column.HasPart body front part back →
      Primary.HasPart (.parens opener body closer) (⟨.openParen, opener⟩ :: front) part
        (back ++ [⟨.closeParen, closer⟩])

inductive Term.HasPart : Term → List Lexeme → List Lexeme → List Lexeme → Prop
  | head {head : Primary} {front part back : List Lexeme} :
      Primary.HasPart head front part back → Term.HasPart (.bare head) front part back
  | target {target : Term} {front part back : List Lexeme} (opener : Span) (content : Column)
      (closer : Span) :
      Term.HasPart target front part back →
      Term.HasPart (.suffixed target opener content closer) front part
        (back ++ ⟨.openBracket, opener⟩ :: (content.lexemes ++ [⟨.closeBracket, closer⟩]))
  | content {content : Column} {front part back : List Lexeme} (target : Term)
      (opener closer : Span) :
      Column.HasPart content front part back →
      Term.HasPart (.suffixed target opener content closer)
        (target.lexemes ++ ⟨.openBracket, opener⟩ :: front) part
        (back ++ [⟨.closeBracket, closer⟩])

inductive Row.HasPart : Row → List Lexeme → List Lexeme → List Lexeme → Prop
  | terms (context : Row.Context) (run : Row) :
      Row.HasPart (context.fill run) context.front run.lexemes context.back
  | inside {term : Term} {front part back : List Lexeme} (context : Row.Context) :
      Term.HasPart term front part back →
      Row.HasPart (context.fill (.single term)) (context.front ++ front) part
        (back ++ context.back)

inductive Column.HasPart : Column → List Lexeme → List Lexeme → List Lexeme → Prop
  | rows (context : Column.Context) (run : Column) :
      Column.HasPart (context.fill run) context.front run.lexemes context.back
  | inside {row : Row} {front part back : List Lexeme} (context : Column.Context) :
      Row.HasPart row front part back →
      Column.HasPart (context.fill (.single row)) (context.front ++ front) part
        (back ++ context.back)
end

mutual
theorem Primary.HasPart.lexemes : {primary : Primary} → {front part back : List Lexeme} →
    primary.HasPart front part back → primary.lexemes = front ++ part ++ back
  | _, _, _, _, .name _ _ => rfl
  | _, _, _, _, .body _ _ held => by simp [Primary.lexemes, held.lexemes]

theorem Term.HasPart.lexemes : {term : Term} → {front part back : List Lexeme} →
    term.HasPart front part back → term.lexemes = front ++ part ++ back
  | _, _, _, _, .head held => held.lexemes
  | _, _, _, _, .target _ _ _ held => by simp [Term.lexemes, held.lexemes]
  | _, _, _, _, .content _ _ _ held => by simp [Term.lexemes, held.lexemes]

theorem Row.HasPart.lexemes : {row : Row} → {front part back : List Lexeme} →
    row.HasPart front part back → row.lexemes = front ++ part ++ back
  | _, _, _, _, .terms context run => context.lexemes_fill run
  | _, _, _, _, .inside context held => by
      simp [context.lexemes_fill, Row.lexemes, held.lexemes]

theorem Column.HasPart.lexemes : {column : Column} → {front part back : List Lexeme} →
    column.HasPart front part back → column.lexemes = front ++ part ++ back
  | _, _, _, _, .rows context run => context.lexemes_fill run
  | _, _, _, _, .inside context held => by
      simp [context.lexemes_fill, Column.lexemes, held.lexemes]
end

/-! A part may be put in parentheses. -/

theorem Column.Lists.gathers {column : Column} {rows : List Expr} (lists : column.Lists rows) :
    Expr.Gathers .column rows (Expr.join .column rows) :=
  Expr.gathers_iff.mpr ⟨lists.ne_nil, rfl⟩

section Parenthesize

variable (opener closer : Span)

theorem Column.denotes_parens {column : Column} {rows : List Expr} (lists : column.Lists rows) :
    (Primary.parens opener column closer).Denotes (Expr.join .column rows) :=
  .parens opener closer (Column.denotes_iff.mpr ⟨rows, lists, rfl⟩)

mutual
theorem Primary.HasPart.parenthesize : {primary : Primary} → {front part back : List Lexeme} →
    {inside : Bool} → {expression : Expr} → primary.HasPart front part back →
    primary.Licensed inside → primary.Denotes expression →
    ∃ other : Primary, other.lexemes = front ++ Lexeme.inParens opener closer part ++ back ∧
      other.Licensed inside ∧ other.Denotes expression
  | _, _, _, _, _, expression, .name text span, licensed, denotes => by
      have lists : (Column.single (.single (.bare (.name text span)))).Lists [expression] :=
        .single (.single (.bare denotes)) (.one expression)
      exact ⟨.parens opener (.single (.single (.bare (.name text span)))) closer,
        by simp [Primary.lexemes, Column.lexemes, Row.lexemes, Term.lexemes, Lexeme.inParens],
        licensed, Column.denotes_parens opener closer lists⟩
  | _, _, _, _, _, _, .body start stop held, licensed, .parens _ _ denotes => by
      obtain ⟨other, spells, allowed, same⟩ := held.parenthesize licensed denotes
      exact ⟨.parens start other stop, by simp [Primary.lexemes, spells], allowed,
        .parens start stop same⟩

theorem Term.HasPart.parenthesize : {term : Term} → {front part back : List Lexeme} →
    {inside : Bool} → {expression : Expr} → term.HasPart front part back → term.Licensed inside →
    term.Denotes expression →
    ∃ other : Term, other.lexemes = front ++ Lexeme.inParens opener closer part ++ back ∧
      other.Licensed inside ∧ other.Denotes expression
  | _, _, _, _, _, _, .head held, licensed, .bare denotes => by
      obtain ⟨other, spells, allowed, same⟩ := held.parenthesize licensed denotes
      exact ⟨.bare other, spells, allowed, .bare same⟩
  | _, _, _, _, _, _, .target start content stop (.head held), licensed,
      .content _ _ headDenotes denotes => by
      obtain ⟨other, spells, allowed, same⟩ := held.parenthesize licensed.1 headDenotes
      exact ⟨.suffixed (.bare other) start content stop, by simp [Term.lexemes, spells],
        ⟨allowed, licensed.2⟩, .content start stop same denotes⟩
  | _, _, _, _, _, _, .content _ start stop held, licensed, .content _ _ headDenotes denotes => by
      obtain ⟨other, spells, allowed, same⟩ := held.parenthesize licensed.2 denotes
      exact ⟨.suffixed _ start other stop, by simp [Term.lexemes, spells],
        ⟨licensed.1, allowed⟩, .content start stop headDenotes same⟩

/-- The items of the row may change, but not what they are gathered to. -/
theorem Row.HasPart.parenthesize : {row : Row} → {front part back : List Lexeme} →
    {inside : Bool} → {items : List Expr} → {expression : Expr} → row.HasPart front part back →
    row.Licensed inside → row.Lists items → Expr.Gathers .row items expression →
    ∃ (other : Row) (others : List Expr),
      other.lexemes = front ++ Lexeme.inParens opener closer part ++ back ∧
        other.Licensed inside ∧ other.Lists others ∧ Expr.Gathers .row others expression
  | _, _, _, _, _, _, _, .terms context run, licensed, lists, gathers => by
      obtain ⟨before, middle, after, listsRun, rfl, refill⟩ := context.lists_fill lists
      have gathered := listsRun.gathers
      obtain ⟨inner, refit⟩ := context.licensed_fill licensed
      have denotes := Column.denotes_parens opener closer (.single listsRun gathered)
      refine ⟨context.fill (.single (.bare (.parens opener (.single run) closer))), _, ?_,
        refit _ inner, refill (.single (.bare denotes)),
        gathers.part gathered⟩
      simp [context.lexemes_fill, Row.lexemes, Term.lexemes, Primary.lexemes, Column.lexemes,
        Lexeme.inParens]
  | _, _, _, _, _, _, _, .inside context held, licensed, lists, gathers => by
      obtain ⟨before, middle, after, listsTerm, rfl, refill⟩ := context.lists_fill lists
      obtain ⟨inner, refit⟩ := context.licensed_fill licensed
      cases listsTerm with
      | single denotes =>
          obtain ⟨other, spells, allowed, same⟩ := held.parenthesize inner denotes
          refine ⟨context.fill (.single other), _, ?_,
            refit _ allowed, refill (.single same), gathers⟩
          simp [context.lexemes_fill, Row.lexemes, spells]

theorem Column.HasPart.parenthesize : {column : Column} → {front part back : List Lexeme} →
    {inside : Bool} → {expression : Expr} → column.HasPart front part back →
    column.Licensed inside → column.Denotes expression →
    ∃ other : Column, other.lexemes = front ++ Lexeme.inParens opener closer part ++ back ∧
      other.Licensed inside ∧ other.Denotes expression
  | _, _, _, _, _, _, .rows context run, licensed, .gather lists gathers => by
      obtain ⟨before, middle, after, listsRun, rfl, refill⟩ := context.lists_fill lists
      have gathered := listsRun.gathers
      obtain ⟨inner, refit⟩ := context.licensed_fill licensed
      have denotes := Column.denotes_parens opener closer listsRun
      refine ⟨context.fill (.single (.single (.bare (.parens opener run closer)))), ?_,
        refit _ inner,
        .gather (refill (.single (.single (.bare denotes)) (.one _))) (gathers.part gathered)⟩
      simp [context.lexemes_fill, Row.lexemes, Term.lexemes, Primary.lexemes, Column.lexemes,
        Lexeme.inParens]
  | _, _, _, _, _, _, .inside context held, licensed, .gather lists gathers => by
      obtain ⟨before, middle, after, listsRow, rfl, refill⟩ := context.lists_fill lists
      obtain ⟨inner, refit⟩ := context.licensed_fill licensed
      cases listsRow with
      | single items gathered =>
          obtain ⟨other, others, spells, allowed, same, gathersOther⟩ :=
            held.parenthesize inner items gathered
          refine ⟨context.fill (.single other), ?_,
            refit _ allowed,
            .gather (refill (.single same gathersOther)) gathers⟩
          simp [context.lexemes_fill, Column.lexemes, spells]
end

end Parenthesize

/-- Where lexemes are read, a name, some consecutive terms of a row or some consecutive rows of a
column, at any depth, may be put in parentheses, and the same is read. -/
theorem Expr.ofLexemes_parenthesize {size : Nat} {lexemes : List Lexeme} {expression : Expr}
    (read : Expr.ofLexemes size lexemes = .ok expression) :
    (∃ column : Column, column.Derives lexemes) ∧
      ∀ column : Column, column.Derives lexemes → ∀ front part back,
        column.HasPart front part back →
          lexemes = front ++ part ++ back ∧ ∀ other opener closer,
            Expr.ofLexemes other (front ++ Lexeme.inParens opener closer part ++ back) =
              .ok expression := by
  have reads : ∀ size lexemes, Expr.ofLexemes size lexemes = .ok expression ↔
      ∃ column : Column, column.Derives lexemes ∧ column.Denotes expression := by
    intro size lexemes
    simp only [Expr.ofLexemes, bind_eq_ok_iff, mapError_eq_ok_iff, Column.ofLexemes_eq_ok_iff,
      Column.denote_eq_ok_iff]
  obtain ⟨column, derives, denotes⟩ := (reads size lexemes).mp read
  refine ⟨⟨column, derives⟩, ?_⟩
  intro other derivesOther front part back held
  obtain rfl := derives.unique derivesOther
  refine ⟨by rw [← derives.spells, held.lexemes], ?_⟩
  intro other opener closer
  obtain ⟨whole, spells, licensed, same⟩ :=
    held.parenthesize opener closer derives.licensed denotes
  exact (reads other _).mpr ⟨whole, ⟨licensed, spells⟩, same⟩

/-- In `x[a/b c]` the two juxtaposed terms may be put in parentheses. -/
theorem Expr.ofLexemes_parenthesize_in_content :
    let b : Term := .bare (.name "b" ⟨4, 5⟩)
    let c : Term := .bare (.name "c" ⟨6, 7⟩)
    let front : List Lexeme := [⟨.name "x", ⟨0, 1⟩⟩, ⟨.openBracket, ⟨1, 2⟩⟩,
      ⟨.name "a", ⟨2, 3⟩⟩, ⟨.slash, ⟨3, 4⟩⟩]
    let back : List Lexeme := [⟨.closeBracket, ⟨7, 8⟩⟩]
    let expression : Expr :=
      .container "x" (.group .column [.entity "a", .group .row [.entity "b", .entity "c"]])
    Expr.ofLexemes 8 (front ++ (b.lexemes ++ c.lexemes) ++ back) = .ok expression ∧
      Expr.ofLexemes 10 (front ++ Lexeme.inParens ⟨4, 5⟩ ⟨8, 9⟩ (b.lexemes ++ c.lexemes) ++ back) =
        .ok expression := by
  intro b c front back expression
  let a : Term := .bare (.name "a" ⟨2, 3⟩)
  let content : Column := .slash (.single (.single a)) ⟨3, 4⟩ (.beside (.single b) c)
  let column : Column :=
    .single (.single (.suffixed (.bare (.name "x" ⟨0, 1⟩)) ⟨1, 2⟩ content ⟨7, 8⟩))
  have read : Expr.ofLexemes 8 (front ++ (b.lexemes ++ c.lexemes) ++ back) = .ok expression := rfl
  have derives : column.Derives (front ++ (b.lexemes ++ c.lexemes) ++ back) :=
    ⟨⟨trivial, ⟨trivial, rfl, trivial, trivial⟩⟩, rfl⟩
  have inContent : content.HasPart [⟨.name "a", ⟨2, 3⟩⟩, ⟨.slash, ⟨3, 4⟩⟩]
      (b.lexemes ++ c.lexemes) [] :=
    .inside ⟨some (.single (.single a), ⟨3, 4⟩), none⟩ (.terms ⟨none, none⟩ (.beside (.single b) c))
  have held : column.HasPart front (b.lexemes ++ c.lexemes) back :=
    .inside ⟨none, none⟩ (.inside ⟨none, none⟩ (.content _ _ _ inContent))
  obtain ⟨-, same⟩ := (Expr.ofLexemes_parenthesize read).2 column derives _ _ _ held
  exact ⟨read, same 10 ⟨4, 5⟩ ⟨8, 9⟩⟩

end Wireframe
