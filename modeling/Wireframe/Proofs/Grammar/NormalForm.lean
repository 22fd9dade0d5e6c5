import Wireframe.Proofs.Expr.Join
import Wireframe.Proofs.Grammar.Reading
import Wireframe.Proofs.Grammar.Tiling

/-! Normal forms are what layout text can say: no group is trivial or could be merged with
the group around it, and every name can be written. Each has a canonical text, which reads
back as the same expression. -/

namespace Wireframe

namespace Expr

structure Normal (expression : Expr) : Prop where
  plain : ∀ name ∈ expression.references, Name.IsPlain name
  flat : expression.Flat

theorem referencesAll_append (items later : List Expr) :
    Expr.referencesAll (items ++ later) =
      Expr.referencesAll items ++ Expr.referencesAll later := by
  simp [referencesAll_eq_flatMap]

/-! What a phrase denotes is in normal form. -/

theorem Spliced.self {direction : Direction} {items : List Expr}
    (different : ∀ item ∈ items, ¬ item.IsGroup direction) : Spliced direction items items := by
  induction items with
  | nil => exact .nil
  | cons item rest ih =>
      refine .other item ?_ (ih fun other later => different other (.tail item later))
      intro children grouped
      exact different item List.mem_cons_self ⟨children, grouped⟩

/-- Items that are flat and whose names are all among the lexemes. -/
structure MadeOf (lexemes : List Lexeme) (items : List Expr) : Prop where
  flat : Expr.FlatAll items
  named : ∀ name ∈ Expr.referencesAll items, ∃ span, ⟨.name name, span⟩ ∈ lexemes

namespace MadeOf

variable {lexemes later : List Lexeme} {items others : List Expr}

theorem mono (made : MadeOf lexemes items) (within : lexemes ⊆ later) : MadeOf later items where
  flat := made.flat
  named := fun name member => (made.named name member).imp fun _ found => within found

theorem append (made : MadeOf lexemes items) (madeLater : MadeOf lexemes others) :
    MadeOf lexemes (items ++ others) where
  flat := flatAll_append.mpr ⟨made.flat, madeLater.flat⟩
  named := by
    intro name member
    rw [referencesAll_append] at member
    cases List.mem_append.mp member with
    | inl first => exact made.named name first
    | inr last => exact madeLater.named name last

theorem gather (made : MadeOf lexemes items) {direction : Direction} {expression : Expr}
    (gathers : Gathers direction items expression) : MadeOf lexemes [expression] := by
  obtain ⟨nonempty, rfl⟩ := gathers_iff.mp gathers
  refine ⟨⟨flat_join nonempty (flatAll_iff.mp made.flat), trivial⟩, ?_⟩
  have named := made.named
  rw [referencesAll_eq_flatMap, ← references_join direction] at named
  simpa [Expr.referencesAll] using named

theorem container {name : String} {content : Expr} (target : MadeOf lexemes [.entity name])
    (made : MadeOf lexemes [content]) : MadeOf lexemes [.container name content] where
  flat := made.flat
  named := by
    intro other member
    simp only [Expr.referencesAll, references, List.append_nil, List.mem_cons] at member
    cases member with
    | inl same => exact target.named other (same ▸ List.mem_singleton_self name)
    | inr inside => exact made.named other (by simpa [Expr.referencesAll] using inside)

end MadeOf

end Expr

mutual
theorem Primary.Denotes.madeOf : {primary : Primary} → {expression : Expr} →
    primary.Denotes expression → Expr.MadeOf primary.lexemes [expression]
  | _, _, .name text span => by
      refine ⟨⟨trivial, trivial⟩, ?_⟩
      intro name member
      obtain rfl := List.mem_singleton.mp member
      exact ⟨span, List.mem_singleton_self _⟩
  | _, _, .parens opener closer denotes =>
      denotes.madeOf.mono fun _ member => by simp [Primary.lexemes, member]

theorem Term.Denotes.madeOf : {term : Term} → {expression : Expr} →
    term.Denotes expression → Expr.MadeOf term.lexemes [expression]
  | _, _, .bare denotes => denotes.madeOf
  | _, _, .content opener closer headDenotes denotes =>
      .container (headDenotes.madeOf.mono fun _ member => by simp [Term.lexemes, member])
        (denotes.madeOf.mono fun _ member => by simp [Term.lexemes, member])

theorem Row.Lists.madeOf : {row : Row} → {items : List Expr} →
    row.Lists items → Expr.MadeOf row.lexemes items
  | _, _, .single denotes => denotes.madeOf
  | _, _, .plus sign lists denotes =>
      (lists.madeOf.mono fun _ member => by simp [Row.lexemes, member]).append
        (denotes.madeOf.mono fun _ member => by simp [Row.lexemes, member])
  | _, _, .beside lists denotes =>
      (lists.madeOf.mono fun _ member => by simp [Row.lexemes, member]).append
        (denotes.madeOf.mono fun _ member => by simp [Row.lexemes, member])

theorem Column.Lists.madeOf : {column : Column} → {rows : List Expr} →
    column.Lists rows → Expr.MadeOf column.lexemes rows
  | _, _, .single lists gathers => lists.madeOf.gather gathers
  | _, _, .slash sign listsInit lists gathers =>
      (listsInit.madeOf.mono fun _ member => by simp [Column.lexemes, member]).append
        ((lists.madeOf.gather gathers).mono fun _ member => by simp [Column.lexemes, member])

theorem Column.Denotes.madeOf : {column : Column} → {expression : Expr} →
    column.Denotes expression → Expr.MadeOf column.lexemes [expression]
  | _, _, .gather lists gathers => lists.madeOf.gather gathers
end

theorem Expr.parse_eq_ok_iff {text : List Char} {expression : Expr} :
    Expr.parse text = .ok expression ↔ ∃ lexemes, Lexeme.scan text = .ok lexemes ∧
      ∃ column : Column, column.Derives lexemes ∧ column.Denotes expression := by
  simp only [Expr.parse, Expr.ofLexemes, bind_eq_ok_iff, mapError_eq_ok_iff,
    Column.ofLexemes_eq_ok_iff, Column.denote_eq_ok_iff]

theorem Expr.normal_of_parse {text : List Char} {expression : Expr}
    (read : Expr.parse text = .ok expression) : expression.Normal := by
  obtain ⟨lexemes, scanned, column, derives, denotes⟩ := Expr.parse_eq_ok_iff.mp read
  have made := denotes.madeOf
  rw [derives.spells] at made
  refine ⟨?_, made.flat.1⟩
  intro name member
  obtain ⟨span, found⟩ := made.named name (by simpa [Expr.referencesAll] using member)
  exact (Lexeme.scan_eq_ok_iff.mp scanned).legal _ found name rfl

/-! Canonical text. -/

def Direction.sign : Direction → Token
  | .row => .plus
  | .column => .slash

namespace Expr

/-- Groups inside groups stand in parentheses. -/
def enclose : Expr → List Token → List Token
  | .group _ _, tokens => .openParen :: (tokens ++ [.closeParen])
  | _, tokens => tokens

mutual
/-- The tokens of the canonical text. A group has its sign between its children. -/
def tokens : Expr → List Token
  | .entity name => [.name name]
  | .group direction children => [direction.sign].intercalate (Expr.pieces children)
  | .container name content => .name name :: .openBracket :: (content.tokens ++ [.closeBracket])

def pieces : List Expr → List (List Token)
  | [] => []
  | item :: rest => item.enclose item.tokens :: Expr.pieces rest
end

/-- The text without blanks and with no parentheses but those of groups inside groups. -/
def canonical (expression : Expr) : List Char :=
  Token.spell expression.tokens

theorem pieces_eq_map (items : List Expr) :
    Expr.pieces items = items.map fun item => item.enclose item.tokens := by
  induction items with
  | nil => rfl
  | cons item rest ih => rw [pieces, ih, List.map_cons]

end Expr

/-- Every piece after the first follows a separator. -/
theorem intercalate_cons (separator : α) (first : List α) (rest : List (List α)) :
    [separator].intercalate (first :: rest) = first ++ rest.flatMap (separator :: ·) := by
  induction rest generalizing first with
  | nil => simp
  | cons next rest ih => rw [List.intercalate_cons_cons, ih]; simp

namespace Token.Compact

variable {tokens : List Token}

theorem intercalate {separator : Token} (mark : separator.isName = false)
    {pieces : List (List Token)} (compact : ∀ piece ∈ pieces, Compact piece) :
    Compact ([separator].intercalate pieces) := by
  cases pieces with
  | nil => exact ⟨nofun, .nil⟩
  | cons first rest =>
      rw [intercalate_cons]
      have init := compact first List.mem_cons_self
      have later := fun piece member => compact piece (List.mem_cons_of_mem first member)
      clear compact
      -- what is joined so far takes the place of the first piece
      induction rest generalizing first with
      | nil => simpa using init
      | cons next rest ih =>
          have joined := init.join mark (later next List.mem_cons_self)
          have all := ih _ joined fun piece member => later piece (List.mem_cons_of_mem next member)
          simpa using all

theorem empty : Compact [] :=
  ⟨nofun, .nil⟩

theorem single {token : Token} (plain : ∀ name, token = .name name → Name.IsPlain name) :
    Compact [token] :=
  ⟨fun name member => plain name (List.mem_singleton.mp member).symm, .singleton _⟩

theorem enclose (compact : Compact tokens) (expression : Expr) :
    Compact (expression.enclose tokens) := by
  cases expression with
  | entity name => exact compact
  | container name content => exact compact
  | group direction children => exact empty.join rfl (compact.join rfl empty)

end Token.Compact

namespace Expr

mutual
theorem compact_tokens : (expression : Expr) →
    (∀ name ∈ expression.references, Name.IsPlain name) → Token.Compact expression.tokens
  | .entity name, plain => .single fun other same => by
      cases same
      exact plain name (List.mem_singleton_self name)
  | .group direction children, plain => by
      rw [tokens]
      refine .intercalate (by cases direction <;> rfl) ?_
      rw [pieces_eq_map]
      intro piece member
      obtain ⟨item, inside, rfl⟩ := List.mem_map.mp member
      exact (compact_tokensAll children plain item inside).enclose item
  | .container name content, plain => by
      have target : Token.Compact [.name name] := .single fun other same => by
        cases same
        exact plain name List.mem_cons_self
      have inside := compact_tokens content fun other member =>
        plain other (List.mem_cons_of_mem name member)
      exact target.join rfl (inside.join rfl .empty)

theorem compact_tokensAll : (items : List Expr) →
    (∀ name ∈ Expr.referencesAll items, Name.IsPlain name) →
    ∀ item ∈ items, Token.Compact item.tokens
  | [], _, _, member => by cases member
  | first :: rest, plain, item, member => by
      cases List.mem_cons.mp member with
      | inl same =>
          rw [same]
          exact compact_tokens first fun name inside => plain name (List.mem_append_left _ inside)
      | inr later =>
          exact compact_tokensAll rest
            (fun name inside => plain name (List.mem_append_right _ inside)) item later
end

/-! Lexemes that write the tokens of a flat expression are a phrase that denotes it. -/

/-- An expression that is denoted by whatever lexemes write its tokens. -/
structure Readable (expression : Expr) : Prop where
  column : ∀ (inside : Bool) (lexemes : List Lexeme),
    lexemes.map (·.token) = expression.tokens →
    ∃ column : Column, column.lexemes = lexemes ∧ column.Licensed inside ∧
      column.Denotes expression
  term : ∀ (inside : Bool) (lexemes : List Lexeme),
    lexemes.map (·.token) = expression.enclose expression.tokens →
    ∃ term : Term, term.lexemes = lexemes ∧ term.Licensed inside ∧ term.Denotes expression

end Expr

theorem Lexeme.exists_of_map_cons {lexemes : List Lexeme} {token : Token} {rest : List Token}
    (tokens : lexemes.map (·.token) = token :: rest) :
    ∃ span later, lexemes = ⟨token, span⟩ :: later ∧ later.map (·.token) = rest := by
  obtain ⟨⟨first, span⟩, later, rfl, rfl, same⟩ := List.map_eq_cons_iff.mp tokens
  exact ⟨span, later, rfl, same⟩

theorem Lexeme.exists_of_map_bracket {lexemes : List Lexeme} {token closer : Token}
    {inner : List Token} (tokens : lexemes.map (·.token) = token :: (inner ++ [closer])) :
    ∃ opener body span, lexemes = ⟨token, opener⟩ :: (body ++ [⟨closer, span⟩]) ∧
      body.map (·.token) = inner := by
  obtain ⟨opener, later, rfl, rest⟩ := exists_of_map_cons tokens
  obtain ⟨body, last, rfl, same, closed⟩ := List.map_eq_append_iff.mp rest
  obtain ⟨span, nothing, rfl, empty⟩ := exists_of_map_cons closed
  obtain rfl := List.map_eq_nil_iff.mp empty
  exact ⟨opener, body, span, rfl, same⟩

namespace Expr

namespace Readable

theorem of_term {expression : Expr}
    (unenclosed : expression.enclose expression.tokens = expression.tokens)
    (term : ∀ (inside : Bool) (lexemes : List Lexeme),
      lexemes.map (·.token) = expression.tokens →
      ∃ term : Term, term.lexemes = lexemes ∧ term.Licensed inside ∧ term.Denotes expression) :
    expression.Readable where
  term := by rwa [unenclosed]
  column := by
    intro inside lexemes written
    obtain ⟨term, rfl, licensed, denotes⟩ := term inside lexemes written
    exact ⟨.single (.single term), rfl, licensed,
      .gather (.single (.single denotes) (.one _)) (.one _)⟩

theorem of_column {direction : Direction} {children : List Expr}
    (column : ∀ (inside : Bool) (lexemes : List Lexeme),
      lexemes.map (·.token) = (group direction children).tokens →
      ∃ column : Column, column.lexemes = lexemes ∧ column.Licensed inside ∧
        column.Denotes (group direction children)) :
    (group direction children).Readable where
  column := column
  term := by
    intro inside lexemes written
    obtain ⟨opener, body, closer, rfl, same⟩ := Lexeme.exists_of_map_bracket written
    obtain ⟨column, rfl, licensed, denotes⟩ := column inside body same
    exact ⟨.bare (.parens opener column closer), rfl, licensed,
      .bare (.parens opener closer denotes)⟩

variable {items before : List Expr}

/-- A row goes on with readable items. -/
theorem exists_row (readable : ∀ item ∈ items, item.Readable) {inside : Bool} (init : Row)
    (licensed : init.Licensed inside) (lists : init.Lists before) (lexemes : List Lexeme)
    (written : lexemes.map (·.token) =
      (Expr.pieces items).flatMap (Direction.row.sign :: ·)) :
    ∃ row : Row, row.lexemes = init.lexemes ++ lexemes ∧ row.Licensed inside ∧
      row.Lists (before ++ items) := by
  induction items generalizing init before lexemes with
  | nil =>
      obtain rfl := List.map_eq_nil_iff.mp written
      exact ⟨init, by simp, licensed, by simpa using lists⟩
  | cons item rest ih =>
      obtain ⟨sign, later, rfl, same⟩ := Lexeme.exists_of_map_cons written
      obtain ⟨piece, last, rfl, itemWritten, restWritten⟩ := List.map_eq_append_iff.mp same
      obtain ⟨term, rfl, termLicensed, denotes⟩ :=
        (readable item List.mem_cons_self).term inside piece itemWritten
      obtain ⟨row, spells, rowLicensed, rowLists⟩ :=
        ih (fun other member => readable other (.tail item member))
          (.plus init sign term) ⟨licensed, termLicensed⟩ (.plus sign lists denotes)
          last restWritten
      exact ⟨row, by simp [spells, Row.lexemes, Direction.sign], rowLicensed,
        by simpa using rowLists⟩

/-- A column goes on with readable items, each of which is a row of its own. -/
theorem exists_column (readable : ∀ item ∈ items, item.Readable) {inside : Bool} (init : Column)
    (licensed : init.Licensed inside) (lists : init.Lists before) (lexemes : List Lexeme)
    (written : lexemes.map (·.token) =
      (Expr.pieces items).flatMap (Direction.column.sign :: ·)) :
    ∃ column : Column, column.lexemes = init.lexemes ++ lexemes ∧ column.Licensed inside ∧
      column.Lists (before ++ items) := by
  induction items generalizing init before lexemes with
  | nil =>
      obtain rfl := List.map_eq_nil_iff.mp written
      exact ⟨init, by simp, licensed, by simpa using lists⟩
  | cons item rest ih =>
      obtain ⟨sign, later, rfl, same⟩ := Lexeme.exists_of_map_cons written
      obtain ⟨piece, last, rfl, itemWritten, restWritten⟩ := List.map_eq_append_iff.mp same
      obtain ⟨term, rfl, termLicensed, denotes⟩ :=
        (readable item List.mem_cons_self).term inside piece itemWritten
      obtain ⟨column, spells, columnLicensed, columnLists⟩ :=
        ih (fun other member => readable other (.tail item member))
          (.slash init sign (.single term)) ⟨licensed, termLicensed⟩
          (.slash sign lists (.single denotes) (.one item)) last restWritten
      exact ⟨column, by simp [spells, Column.lexemes, Row.lexemes, Direction.sign], columnLicensed,
        by simpa using columnLists⟩

theorem group (direction : Direction) (readable : ∀ item ∈ items, item.Readable)
    (two : 2 ≤ items.length) (different : ∀ item ∈ items, ¬ item.IsGroup direction) :
    (group direction items).Readable := by
  apply of_column
  intro inside lexemes written
  have gathers : Gathers direction items (.group direction items) :=
    .several two (Spliced.self different)
  cases items with
  | nil => simp at two
  | cons first rest =>
      -- the first item starts the phrase, and every other one goes on after a sign
      rw [tokens, pieces, intercalate_cons] at written
      obtain ⟨piece, last, rfl, firstWritten, restWritten⟩ := List.map_eq_append_iff.mp written
      obtain ⟨term, rfl, licensed, denotes⟩ :=
        (readable first List.mem_cons_self).term inside piece firstWritten
      have later := fun item member => readable item (List.mem_cons_of_mem first member)
      cases direction with
      | row =>
          obtain ⟨row, spells, licensed, lists⟩ :=
            exists_row later (.single term) licensed (.single denotes) last restWritten
          exact ⟨.single row, spells, licensed, .gather (.single lists gathers) (.one _)⟩
      | column =>
          obtain ⟨column, spells, licensed, lists⟩ :=
            exists_column later (.single (.single term)) licensed
              (.single (.single denotes) (.one first)) last restWritten
          exact ⟨column, spells, licensed, .gather lists gathers⟩

theorem entity (name : String) : (entity name).Readable := by
  refine of_term rfl ?_
  intro inside lexemes written
  obtain ⟨span, later, rfl, empty⟩ := Lexeme.exists_of_map_cons written
  obtain rfl := List.map_eq_nil_iff.mp empty
  exact ⟨.bare (.name name span), rfl, trivial, .bare (.name name span)⟩

theorem container (name : String) {content : Expr} (readable : content.Readable) :
    (container name content).Readable := by
  refine of_term rfl ?_
  intro inside lexemes written
  obtain ⟨span, later, rfl, inBrackets⟩ := Lexeme.exists_of_map_cons written
  obtain ⟨opener, body, closer, rfl, same⟩ := Lexeme.exists_of_map_bracket inBrackets
  obtain ⟨column, rfl, licensed, denotes⟩ := readable.column true body same
  exact ⟨.suffixed (.bare (.name name span)) opener column closer, rfl, ⟨trivial, licensed⟩,
    .content opener closer (.name name span) denotes⟩

end Readable

mutual
theorem Flat.readable : (expression : Expr) → expression.Flat → expression.Readable
  | .entity name, _ => .entity name
  | .group direction children, ⟨two, different, flat⟩ =>
      .group direction (FlatAll.readable children flat) two different
  | .container name content, flat => .container name (Flat.readable content flat)

theorem FlatAll.readable : (items : List Expr) → Expr.FlatAll items →
    ∀ item ∈ items, item.Readable
  | [], _, _, member => by cases member
  | first :: rest, ⟨flat, flatRest⟩, item, member => by
      cases List.mem_cons.mp member with
      | inl same =>
          rw [same]
          exact Flat.readable first flat
      | inr later => exact FlatAll.readable rest flatRest item later
end

theorem Normal.parse_canonical {expression : Expr} (normal : expression.Normal) :
    Expr.parse expression.canonical = .ok expression := by
  obtain ⟨lexemes, scanned, written⟩ := (compact_tokens expression normal.plain).scan_spell
  obtain ⟨column, spells, licensed, denotes⟩ :=
    (Flat.readable expression normal.flat).column false lexemes written
  exact Expr.parse_eq_ok_iff.mpr ⟨lexemes, scanned, column, ⟨licensed, spells⟩, denotes⟩

/-- Texts read as the expressions in normal form and no others, and each of these is what its
canonical text reads as. So reading what was read and written again changes nothing. -/
theorem parse_image (expression : Expr) :
    ((∃ text, Expr.parse text = .ok expression) ↔ expression.Normal) ∧
      (expression.Normal ↔ Expr.parse expression.canonical = .ok expression) ∧
      ∀ text, (do Expr.parse (← Expr.parse text).canonical) = Expr.parse text := by
  refine ⟨⟨?_, ?_⟩, ⟨Normal.parse_canonical, normal_of_parse⟩, ?_⟩
  · intro read
    obtain ⟨text, read⟩ := read
    exact normal_of_parse read
  · intro normal
    exact ⟨expression.canonical, normal.parse_canonical⟩
  · intro text
    cases read : Expr.parse text with
    | error error => rfl
    | ok other => exact (normal_of_parse read).parse_canonical

example :
    canonical (.group .row [.entity "a", .group .column [.entity "b",
      .container "c" (.entity "x")]]) = "a+(b/c[x])".toList := by decide

end Expr

end Wireframe
