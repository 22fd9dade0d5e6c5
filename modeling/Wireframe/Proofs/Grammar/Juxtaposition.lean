import Wireframe.Proofs.Grammar.Rejection

/-! Plus signs between terms. Where a content is open a sign says no more than juxtaposition does,
so it may be left out or put in; elsewhere no term follows another one without it. -/

namespace Wireframe

open Text

/-- What a token leaves of some open brackets, the innermost first. -/
def Token.reopen (opened : List Token) : Token → List Token
  | .openParen => .openParen :: opened
  | .openBracket => .openBracket :: opened
  | .closeParen | .closeBracket => opened.tail
  | .plus | .slash | .name _ => opened

namespace Lexeme

/-- The brackets that are open after some lexemes, the innermost first. -/
def opened (lexemes : List Lexeme) : List Token :=
  lexemes.foldl (fun opened lexeme => lexeme.token.reopen opened) []

/-- A lexeme with which a term may end. -/
def Finishes (lexeme : Lexeme) : Prop :=
  (∃ text, lexeme.token = .name text) ∨ lexeme.token = .closeParen ∨
    lexeme.token = .closeBracket

end Lexeme

/-! Phrases and states without signs. -/

mutual
/-- The same phrase with every sign between terms left out. -/
def Primary.unsigned : Primary → Primary
  | .name text span => .name text span
  | .parens opener body closer => .parens opener body.unsigned closer

def Term.unsigned : Term → Term
  | .bare head => .bare head.unsigned
  | .suffixed target opener content closer =>
      .suffixed target.unsigned opener content.unsigned closer

def Row.unsigned : Row → Row
  | .single first => .single first.unsigned
  | .plus init _ last => .beside init.unsigned last.unsigned
  | .beside init last => .beside init.unsigned last.unsigned

def Column.unsigned : Column → Column
  | .single first => .single first.unsigned
  | .slash init sign last => .slash init.unsigned sign last.unsigned
end

theorem Primary.span_unsigned (primary : Primary) : primary.unsigned.span = primary.span := by
  cases primary with
  | name text span => rfl
  | parens opener body closer => rfl

theorem Term.span_unsigned (term : Term) : term.unsigned.span = term.span := by
  cases term with
  | bare head => exact head.span_unsigned
  | suffixed target opener content closer =>
      simp only [Term.unsigned, Term.span, target.span_unsigned]

mutual
/-- Signs say nothing. -/
theorem Primary.denote_unsigned : (primary : Primary) → primary.unsigned.denote = primary.denote
  | .name text span => rfl
  | .parens opener body closer => by
      simp only [Primary.unsigned, Primary.denote, body.denoteRows_unsigned]

theorem Term.denoteIn_unsigned (whole : Span) : (term : Term) →
    term.unsigned.denoteIn whole = term.denoteIn whole
  | .bare head => head.denote_unsigned
  | .suffixed target opener content closer => by
      simp only [Term.unsigned, Term.denoteIn, target.denoteIn_unsigned whole,
        content.denoteRows_unsigned]

theorem Row.denoteTerms_unsigned : (row : Row) → row.unsigned.denoteTerms = row.denoteTerms
  | .single first => by
      simp only [Row.unsigned, Row.denoteTerms, first.span_unsigned,
        first.denoteIn_unsigned first.span]
  | .plus init sign last => by
      simp only [Row.unsigned, Row.denoteTerms, last.span_unsigned,
        last.denoteIn_unsigned last.span, init.denoteTerms_unsigned]
  | .beside init last => by
      simp only [Row.unsigned, Row.denoteTerms, last.span_unsigned,
        last.denoteIn_unsigned last.span, init.denoteTerms_unsigned]

theorem Column.denoteRows_unsigned : (column : Column) →
    column.unsigned.denoteRows = column.denoteRows
  | .single first => by
      simp only [Column.unsigned, Column.denoteRows, first.denoteTerms_unsigned]
  | .slash init sign last => by
      simp only [Column.unsigned, Column.denoteRows, last.denoteTerms_unsigned,
        init.denoteRows_unsigned]
end

theorem Column.denote_unsigned (column : Column) : column.unsigned.denote = column.denote := by
  simp only [Column.denote, column.denoteRows_unsigned]

mutual
@[simp] theorem Primary.unsigned_unsigned : (primary : Primary) →
    primary.unsigned.unsigned = primary.unsigned
  | .name text span => rfl
  | .parens opener body closer => by
      simp only [Primary.unsigned, body.unsigned_unsigned]

@[simp] theorem Term.unsigned_unsigned : (term : Term) → term.unsigned.unsigned = term.unsigned
  | .bare head => by simp only [Term.unsigned, head.unsigned_unsigned]
  | .suffixed target opener content closer => by
      simp only [Term.unsigned, target.unsigned_unsigned, content.unsigned_unsigned]

@[simp] theorem Row.unsigned_unsigned : (row : Row) → row.unsigned.unsigned = row.unsigned
  | .single first => by simp only [Row.unsigned, first.unsigned_unsigned]
  | .plus init sign last => by
      simp only [Row.unsigned, init.unsigned_unsigned, last.unsigned_unsigned]
  | .beside init last => by
      simp only [Row.unsigned, init.unsigned_unsigned, last.unsigned_unsigned]

@[simp] theorem Column.unsigned_unsigned : (column : Column) →
    column.unsigned.unsigned = column.unsigned
  | .single first => by simp only [Column.unsigned, first.unsigned_unsigned]
  | .slash init sign last => by
      simp only [Column.unsigned, init.unsigned_unsigned, last.unsigned_unsigned]
end

namespace Lead

def unsigned (lead : Lead) : Lead where
  rows := lead.rows.map fun (init, sign) => (init.unsigned, sign)
  terms := lead.terms.map fun (init, _) => (init.unsigned, none)

variable (lead : Lead) (term : Term)

@[simp] theorem unsigned_empty : empty.unsigned = empty := rfl

@[simp] theorem unsigned_unsigned : lead.unsigned.unsigned = lead.unsigned := by
  rcases lead with ⟨_ | ⟨rows, slash⟩, _ | ⟨init, sign⟩⟩ <;> simp [unsigned]

theorem unsigned_row : (lead.row term).unsigned = lead.unsigned.row term.unsigned := by
  rcases lead with ⟨rows, _ | ⟨init, _ | sign⟩⟩ <;> rfl

theorem unsigned_column : (lead.column term).unsigned = lead.unsigned.column term.unsigned := by
  rcases lead with ⟨_ | ⟨rows, slash⟩, terms⟩
  · exact congrArg Column.single (unsigned_row ⟨none, terms⟩ term)
  · exact congrArg (Column.slash rows.unsigned slash) (unsigned_row ⟨_, terms⟩ term)

theorem unsigned_beside : (lead.beside term).unsigned = lead.unsigned.beside term.unsigned := by
  simp only [beside, ← unsigned_row]
  rfl

/-- A sign after a term is all that it differs by from juxtaposition. -/
theorem unsigned_afterPlus (sign : Span) :
    (lead.afterPlus term sign).unsigned = lead.unsigned.beside term.unsigned :=
  lead.unsigned_beside term

theorem unsigned_afterSlash (sign : Span) :
    (lead.afterSlash term sign).unsigned = lead.unsigned.afterSlash term.unsigned sign := by
  simp only [afterSlash, ← unsigned_column]
  rfl

end Lead

def Frame.unsigned : Frame → Frame
  | .parens lead opener => .parens lead.unsigned opener
  | .content lead target opener => .content lead.unsigned target.unsigned opener

def Cursor.unsigned : Cursor → Cursor
  | .start lead => .start lead.unsigned
  | .after lead term => .after lead.unsigned term.unsigned

@[simp] theorem Frame.unsigned_unsigned (frame : Frame) :
    frame.unsigned.unsigned = frame.unsigned := by
  cases frame with
  | parens lead opener => simp [unsigned]
  | content lead target opener => simp [unsigned]

namespace ParseState

def unsigned (state : ParseState) : ParseState where
  frames := state.frames.map Frame.unsigned
  cursor := state.cursor.unsigned

theorem juxtaposes_unsigned (frames : List Frame) :
    juxtaposes (frames.map Frame.unsigned) = juxtaposes frames := by
  induction frames with
  | nil => rfl
  | cons frame outer ih =>
      cases frame with
      | parens lead opener => exact ih
      | content lead target opener => rfl

theorem begin?_unsigned (frames : List Frame) (lead : Lead) (lexeme : Lexeme) :
    begin? (frames.map Frame.unsigned) lead.unsigned lexeme =
      (begin? frames lead lexeme).map unsigned := by
  rcases lexeme with ⟨token, span⟩
  cases token <;> rfl

theorem close?_unsigned (frames : List Frame) (body : Column) (closer : Lexeme) :
    close? (frames.map Frame.unsigned) body.unsigned closer =
      (close? frames body closer).map unsigned := by
  rcases closer with ⟨token, span⟩
  rcases frames with _ | ⟨frame | frame, outer⟩ <;> cases token <;> rfl

@[simp] theorem unsigned_unsigned (state : ParseState) :
    state.unsigned.unsigned = state.unsigned := by
  rcases state with ⟨frames, lead | ⟨lead, term⟩⟩
  · simp [unsigned, Cursor.unsigned]
  · simp [unsigned, Cursor.unsigned]

/-- What a state goes on with does not depend on the signs that it has read. -/
theorem step?_unsigned (state : ParseState) (lexeme : Lexeme) :
    (state.unsigned.step? lexeme).map unsigned = (state.step? lexeme).map unsigned := by
  have again : ∀ next : Option ParseState,
      (next.map unsigned).map unsigned = next.map unsigned := by
    intro next
    simp [Function.comp_def]
  have begun : ∀ frames lead, (begin? (frames.map Frame.unsigned) (Lead.unsigned lead)
      lexeme).map unsigned = (begin? frames lead lexeme).map unsigned := by
    intro frames lead
    rw [begin?_unsigned, again]
  have closed : ∀ frames body, (close? (frames.map Frame.unsigned) (Column.unsigned body)
      lexeme).map unsigned = (close? frames body lexeme).map unsigned := by
    intro frames body
    rw [close?_unsigned, again]
  have outer : ∀ frames : List Frame, (frames.map Frame.unsigned).map Frame.unsigned =
      frames.map Frame.unsigned := by
    intro frames
    simp [Function.comp_def]
  rcases state with ⟨frames, lead | ⟨lead, term⟩⟩
  · exact begun frames lead
  · have besides := begun frames (lead.beside term)
    have columns := closed frames (lead.column term)
    rw [Lead.unsigned_beside] at besides
    rw [Lead.unsigned_column] at columns
    rcases lexeme with ⟨token, span⟩
    cases token with
    | plus =>
        simp [unsigned, Cursor.unsigned, step?, outer, Lead.unsigned_afterPlus]
    | slash =>
        simp [unsigned, Cursor.unsigned, step?, outer, Lead.unsigned_afterSlash]
    | openBracket =>
        simp [unsigned, Cursor.unsigned, step?, outer, Frame.unsigned]
    | closeBracket => exact columns
    | closeParen => exact columns
    | openParen =>
        simp only [unsigned, Cursor.unsigned, step?, juxtaposes_unsigned]
        split
        · exact besides
        · rfl
    | name text =>
        simp only [unsigned, Cursor.unsigned, step?, juxtaposes_unsigned]
        split
        · exact besides
        · rfl

theorem finish?_unsigned (state : ParseState) :
    state.unsigned.finish? = state.finish?.map Column.unsigned := by
  rcases state with ⟨_ | ⟨frame, outer⟩, lead | ⟨lead, term⟩⟩
  · rfl
  · exact congrArg some (lead.unsigned_column term).symm
  · rfl
  · rfl

/-- Lexemes lead from a state to the end of a phrase that denotes an expression. -/
def Reads (state : ParseState) (lexemes : List Lexeme) (expression : Expr) : Prop :=
  ∃ last column, state.advance? lexemes = some last ∧ last.finish? = some column ∧
    column.denote = .ok expression

theorem ofLexemes_eq_ok_iff_reads {size : Nat} {lexemes : List Lexeme} {expression : Expr} :
    Expr.ofLexemes size lexemes = .ok expression ↔ initial.Reads lexemes expression := by
  simp only [Expr.ofLexemes, Column.ofLexemes, bind_eq_ok_iff, mapError_eq_ok_iff, run_eq_ok_iff]
  constructor
  · rintro ⟨column, ⟨last, taken, finished⟩, denoted⟩
    exact ⟨last, column, taken, finished, denoted⟩
  · rintro ⟨last, column, taken, finished, denoted⟩
    exact ⟨column, ⟨last, taken, finished⟩, denoted⟩

theorem reads_append_iff {state : ParseState} {front back : List Lexeme} {expression : Expr} :
    state.Reads (front ++ back) expression ↔
      ∃ next, state.advance? front = some next ∧ next.Reads back expression := by
  unfold Reads
  rw [advance?_append]
  cases state.advance? front with
  | none => simp
  | some next => simp

theorem reads_cons_iff {state : ParseState} {lexeme : Lexeme} {rest : List Lexeme}
    {expression : Expr} :
    state.Reads (lexeme :: rest) expression ↔
      ∃ next, state.step? lexeme = some next ∧ next.Reads rest expression := by
  unfold Reads
  rw [advance?_cons]
  cases state.step? lexeme with
  | none => simp
  | some next => simp

/-- States that differ in signs alone read the same. -/
theorem Reads.of_unsigned {first second : ParseState} (alike : first.unsigned = second.unsigned)
    {lexemes : List Lexeme} {expression : Expr} (reads : first.Reads lexemes expression) :
    second.Reads lexemes expression := by
  induction lexemes generalizing first second with
  | nil =>
      obtain ⟨last, column, taken, finished, denoted⟩ := reads
      cases taken
      have bare := second.finish?_unsigned
      rw [← alike, finish?_unsigned, finished, eq_comm, Option.map_some,
        Option.map_eq_some_iff] at bare
      obtain ⟨other, finishedOther, same⟩ := bare
      refine ⟨second, other, rfl, finishedOther, ?_⟩
      rw [← other.denote_unsigned, same, column.denote_unsigned, denoted]
  | cons lexeme rest ih =>
      obtain ⟨next, taken, later⟩ := reads_cons_iff.mp reads
      have bare := second.step?_unsigned lexeme
      rw [← alike, step?_unsigned, taken, eq_comm, Option.map_some,
        Option.map_eq_some_iff] at bare
      obtain ⟨other, takenOther, same⟩ := bare
      exact reads_cons_iff.mpr ⟨other, takenOther, ih same.symm later⟩

end ParseState

/-! The brackets that a state has open. -/

def Frame.opener : Frame → Token
  | .parens .. => .openParen
  | .content .. => .openBracket

namespace ParseState

theorem juxtaposes_iff {frames : List Frame} :
    juxtaposes frames = true ↔ .openBracket ∈ frames.map Frame.opener := by
  induction frames with
  | nil => simp [juxtaposes]
  | cons frame outer ih =>
      cases frame with
      | parens lead opener => simpa [juxtaposes, Frame.isContent, Frame.opener] using ih
      | content lead target opener => simp [juxtaposes, Frame.isContent, Frame.opener]

theorem Step.opened {state next : ParseState} {lexeme : Lexeme} (step : Step state lexeme next) :
    next.frames.map Frame.opener = lexeme.token.reopen (state.frames.map Frame.opener) := by
  induction step with
  | beside _ _ ih => exact ih
  | name | openParen | plus | slash | openBracket | closeParen | closeBracket => rfl

theorem opened_of_advance? {state last : ParseState} {lexemes : List Lexeme}
    (taken : state.advance? lexemes = some last) :
    last.frames.map Frame.opener =
      lexemes.foldl (fun opened lexeme => lexeme.token.reopen opened)
        (state.frames.map Frame.opener) := by
  induction lexemes generalizing state with
  | nil =>
      cases taken
      rfl
  | cons lexeme rest ih =>
      rw [advance?_cons, Option.bind_eq_some_iff] at taken
      obtain ⟨next, first, taken⟩ := taken
      rw [ih taken, (Step.of_step? first).opened, List.foldl_cons]

theorem opened_initial {last : ParseState} {lexemes : List Lexeme}
    (taken : initial.advance? lexemes = some last) :
    last.frames.map Frame.opener = Lexeme.opened lexemes :=
  opened_of_advance? taken

/-! Where a sign may stand. -/

theorem Step.exists_of_plus {state next : ParseState} {sign : Span}
    (step : Step state ⟨.plus, sign⟩ next) :
    ∃ lead term, state = ⟨state.frames, .after lead term⟩ ∧
      next = ⟨state.frames, .start (lead.afterPlus term sign)⟩ := by
  cases step with
  | plus => exact ⟨_, _, rfl, rfl⟩
  | beside _ begun => cases begun

theorem Step.begins {frames : List Frame} {lead : Lead} {lexeme : Lexeme} {next : ParseState}
    (step : Step ⟨frames, .start lead⟩ lexeme next) : lexeme.Begins := by
  cases step with
  | name text span => exact .inl ⟨text, rfl⟩
  | openParen span => exact .inr rfl

theorem Step.exists_after {state next : ParseState} {lexeme : Lexeme}
    (step : Step state lexeme next) (finishes : lexeme.Finishes) :
    ∃ lead term, next = ⟨next.frames, .after lead term⟩ := by
  induction step with
  | beside _ _ ih => exact ih finishes
  | name | closeParen | closeBracket => exact ⟨_, _, rfl⟩
  | openParen | plus | slash | openBracket => simp [Lexeme.Finishes] at finishes

theorem exists_after_of_advance? {state last : ParseState} {front : List Lexeme} {lexeme : Lexeme}
    (taken : state.advance? (front ++ [lexeme]) = some last) (finishes : lexeme.Finishes) :
    ∃ lead term, last = ⟨last.frames, .after lead term⟩ := by
  rw [advance?_append, Option.bind_eq_some_iff] at taken
  obtain ⟨before, -, taken⟩ := taken
  rw [advance?_cons, Option.bind_eq_some_iff] at taken
  obtain ⟨next, first, nothing⟩ := taken
  cases nothing
  exact (Step.of_step? first).exists_after finishes

section After

variable {frames : List Frame} {lead : Lead} {term : Term} {next : Lexeme}

theorem step?_beside (juxtaposed : juxtaposes frames = true) (begins : next.Begins) :
    step? ⟨frames, .after lead term⟩ next = step? ⟨frames, .start (lead.beside term)⟩ next := by
  rcases next with ⟨token, span⟩
  rcases begins with ⟨text, rfl⟩ | rfl
  · exact if_pos juxtaposed
  · exact if_pos juxtaposed

/-- Where terms may be juxtaposed, a sign between them makes no difference. -/
theorem reads_plus_iff (juxtaposed : juxtaposes frames = true) (begins : next.Begins) (sign : Span)
    {rest : List Lexeme} {expression : Expr} :
    Reads ⟨frames, .after lead term⟩ (⟨.plus, sign⟩ :: next :: rest) expression ↔
      Reads ⟨frames, .after lead term⟩ (next :: rest) expression := by
  have alike : unsigned ⟨frames, .start (lead.afterPlus term sign)⟩ =
      unsigned ⟨frames, .start (lead.beside term)⟩ := rfl
  have beside : Reads ⟨frames, .after lead term⟩ (next :: rest) expression ↔
      Reads ⟨frames, .start (lead.beside term)⟩ (next :: rest) expression := by
    rw [reads_cons_iff, step?_beside juxtaposed begins, ← reads_cons_iff]
  have signed : Reads ⟨frames, .after lead term⟩ (⟨.plus, sign⟩ :: next :: rest) expression ↔
      Reads ⟨frames, .start (lead.afterPlus term sign)⟩ (next :: rest) expression := by
    rw [reads_cons_iff]
    simp [step?]
  rw [beside, signed]
  exact ⟨.of_unsigned alike, .of_unsigned alike.symm⟩

theorem step?_apart (apart : juxtaposes frames = false) (begins : next.Begins) :
    step? ⟨frames, .after lead term⟩ next = none := by
  rcases next with ⟨token, span⟩
  rcases begins with ⟨text, rfl⟩ | rfl
  · simp [step?, apart]
  · simp [step?, apart]

theorem reject_apart (apart : juxtaposes frames = false) (next : Lexeme) :
    reject ⟨frames, .after lead term⟩ next =
      if .openParen ∈ frames.map Frame.opener then
        .unexpectedToken next.token next.span [.closeParen, .plus, .slash, .openBracket]
      else .trailingInput next.token next.span := by
  rcases frames with _ | ⟨around | around, outer⟩
  · rfl
  · simp [reject, finish?, marks, step?, close?, apart, Frame.opener]
  · cases apart

end After

/-- A sign that is read stands after a term, and another one begins after it. -/
theorem Reads.exists_of_plus {state : ParseState} {front back : List Lexeme} {sign : Span}
    {expression : Expr} (reads : state.Reads (front ++ ⟨.plus, sign⟩ :: back) expression) :
    ∃ frames lead term next rest,
      state.advance? front = some ⟨frames, .after lead term⟩ ∧ back = next :: rest ∧
        next.Begins ∧ Reads ⟨frames, .after lead term⟩ (⟨.plus, sign⟩ :: back) expression := by
  obtain ⟨before, taken, later⟩ := reads_append_iff.mp reads
  obtain ⟨after, signed, rest⟩ := reads_cons_iff.mp later
  obtain ⟨lead, term, place, follows⟩ := (Step.of_step? signed).exists_of_plus
  rw [place] at taken later
  rw [follows] at rest
  cases back with
  | nil =>
      -- a phrase does not end with a sign
      obtain ⟨last, column, nothing, finished, -⟩ := rest
      cases nothing
      rcases before with ⟨_ | ⟨frame, outer⟩, cursor⟩ <;> cases finished
  | cons next rest' =>
      obtain ⟨begun, taken', -⟩ := reads_cons_iff.mp rest
      exact ⟨_, lead, term, next, rest', taken, rfl, (Step.of_step? taken').begins, later⟩

end ParseState

/-- A sign between terms that some content encloses may be left out, and put in between any two
terms there, and the same is read. Without a sign that no content encloses reading fails at the
term after it. -/
theorem Expr.ofLexemes_plus (size other : Nat) (front back : List Lexeme) (sign : Span)
    (expression : Expr) :
    (Expr.ofLexemes size (front ++ ⟨.plus, sign⟩ :: back) = .ok expression →
      .openBracket ∈ Lexeme.opened front →
      Expr.ofLexemes other (front ++ back) = .ok expression) ∧
    (∀ left right : Lexeme, left.Finishes → right.Begins →
      .openBracket ∈ Lexeme.opened (front ++ [left]) →
      Expr.ofLexemes size (front ++ left :: right :: back) = .ok expression →
      Expr.ofLexemes other (front ++ left :: ⟨.plus, sign⟩ :: right :: back) = .ok expression) ∧
    (Expr.ofLexemes size (front ++ ⟨.plus, sign⟩ :: back) = .ok expression →
      .openBracket ∉ Lexeme.opened front →
      ∃ next rest, back = next :: rest ∧
        Expr.ofLexemes other (front ++ back) = .error (
          if .openParen ∈ Lexeme.opened front then
            .unexpectedToken next.token next.span [.closeParen, .plus, .slash, .openBracket]
          else .trailingInput next.token next.span)) := by
  simp only [ParseState.ofLexemes_eq_ok_iff_reads]
  refine ⟨?omitted, ?inserted, ?apart⟩
  case omitted =>
    intro reads enclosed
    obtain ⟨frames, lead, term, next, rest, taken, rfl, begins, later⟩ := reads.exists_of_plus
    rw [← ParseState.opened_initial taken, ← ParseState.juxtaposes_iff] at enclosed
    have bare := (ParseState.reads_plus_iff enclosed begins sign).mp later
    exact ParseState.reads_append_iff.mpr ⟨_, taken, bare⟩
  case inserted =>
    intro left right finishes begins enclosed reads
    rw [List.append_cons, ParseState.reads_append_iff] at reads
    obtain ⟨before, taken, later⟩ := reads
    obtain ⟨lead, term, place⟩ := ParseState.exists_after_of_advance? taken finishes
    rw [← ParseState.opened_initial taken, ← ParseState.juxtaposes_iff] at enclosed
    rw [place] at later taken
    have signed := (ParseState.reads_plus_iff enclosed begins sign).mpr later
    rw [List.append_cons]
    exact ParseState.reads_append_iff.mpr ⟨_, taken, signed⟩
  case apart =>
    intro reads exposed
    obtain ⟨frames, lead, term, next, rest, taken, rfl, begins, -⟩ := reads.exists_of_plus
    have opened := ParseState.opened_initial taken
    rw [← opened, ← ParseState.juxtaposes_iff, Bool.not_eq_true] at exposed
    have stuck : ¬ Extendable (front ++ [next]) := by
      rw [← ParseState.isSome_step?_iff taken, ParseState.step?_apart exposed begins]
      exact nofun
    refine ⟨next, rest, rfl, ?_⟩
    rw [Expr.ofLexemes_stuck other rest taken stuck, ParseState.reject_apart exposed, ← opened]

/-- The sign of `x[a+b]` may be left out and put in again, and without that of `(a+b)` the name
after it is unexpected. -/
theorem Expr.ofLexemes_plus_in_content :
    let opening : List Lexeme := [⟨.name "x", ⟨0, 1⟩⟩, ⟨.openBracket, ⟨1, 2⟩⟩]
    let a : Lexeme := ⟨.name "a", ⟨2, 3⟩⟩
    let plus : Lexeme := ⟨.plus, ⟨3, 4⟩⟩
    let b : Lexeme := ⟨.name "b", ⟨4, 5⟩⟩
    let closing : List Lexeme := [⟨.closeBracket, ⟨5, 6⟩⟩]
    let expression : Expr := .container "x" (.group .row [.entity "a", .entity "b"])
    let paren : Lexeme := ⟨.openParen, ⟨1, 2⟩⟩
    Expr.ofLexemes 6 (opening ++ a :: plus :: b :: closing) = .ok expression ∧
      Expr.ofLexemes 6 (opening ++ a :: b :: closing) = .ok expression ∧
      Expr.ofLexemes 6 (paren :: a :: plus :: b :: [⟨.closeParen, ⟨5, 6⟩⟩]) =
        .ok (.group .row [.entity "a", .entity "b"]) ∧
      Expr.ofLexemes 6 (paren :: a :: b :: [⟨.closeParen, ⟨5, 6⟩⟩]) =
        .error (.unexpectedToken (.name "b") ⟨4, 5⟩ [.closeParen, .plus, .slash, .openBracket]) := by
  intro opening a plus b closing expression paren
  have signed : Expr.ofLexemes 6 ((opening ++ [a]) ++ plus :: b :: closing) = .ok expression := rfl
  have bare := (ofLexemes_plus 6 6 (opening ++ [a]) (b :: closing) ⟨3, 4⟩ expression).1 signed
    (by decide)
  have again := (ofLexemes_plus 6 6 opening closing ⟨3, 4⟩ expression).2.1 a b
    (.inl ⟨"a", rfl⟩) (.inl ⟨"b", rfl⟩) (by decide) bare
  have outside : Expr.ofLexemes 6 ([paren, a] ++ plus :: b :: [⟨.closeParen, ⟨5, 6⟩⟩]) =
      .ok (.group .row [.entity "a", .entity "b"]) := rfl
  obtain ⟨next, rest, same, failed⟩ := (ofLexemes_plus 6 6 [paren, a]
    (b :: [⟨.closeParen, ⟨5, 6⟩⟩]) ⟨3, 4⟩ _).2.2 outside (by decide)
  cases same
  exact ⟨again, bare, outside, failed⟩

end Wireframe
