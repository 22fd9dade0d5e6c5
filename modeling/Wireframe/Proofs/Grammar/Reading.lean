import Wireframe.Expr.Parse
import Wireframe.Proofs.Grammar

/-! Reading gives the derivations of the grammar. What a state has taken is a licensed
beginning of a phrase, and a licensed phrase leads from one state to the next. -/

namespace Wireframe

open Text

def Row.lead : Row → Option (Row × Option Span)
  | .single _ => none
  | .plus init sign _ => some (init, some sign)
  | .beside init _ => some (init, none)

def Row.last : Row → Term
  | .single first => first
  | .plus _ _ last => last
  | .beside _ last => last

/-- What stands before the last term of a column. -/
def Column.lead : Column → Lead
  | .single first => ⟨none, first.lead⟩
  | .slash init sign last => ⟨some (init, sign), last.lead⟩

def Column.last : Column → Term
  | .single first => first.last
  | .slash _ _ last => last.last

@[simp] theorem Lead.row_lead_last (rows : Option (Column × Span)) (row : Row) :
    Lead.row ⟨rows, row.lead⟩ row.last = row := by
  cases row <;> rfl

@[simp] theorem Column.lead_column_last (column : Column) :
    column.lead.column column.last = column := by
  cases column with
  | single first => simp [Column.lead, Column.last, Lead.column]
  | slash init sign last => simp [Column.lead, Column.last, Lead.column]

@[simp] theorem Lead.lead_column (lead : Lead) (term : Term) :
    (lead.column term).lead = lead := by
  rcases lead with ⟨_ | ⟨rows, slash⟩, _ | ⟨init, _ | sign⟩⟩ <;> rfl

@[simp] theorem Lead.last_column (lead : Lead) (term : Term) :
    (lead.column term).last = term := by
  rcases lead with ⟨_ | ⟨rows, slash⟩, _ | ⟨init, _ | sign⟩⟩ <;> rfl

namespace ParseState

/-- One step of reading: what each lexeme does where it can follow. -/
inductive Step : ParseState → Lexeme → ParseState → Prop
  | name {frames : List Frame} {lead : Lead} (text : String) (span : Span) :
      Step ⟨frames, .start lead⟩ ⟨.name text, span⟩
        ⟨frames, .after lead (.bare (.name text span))⟩
  | openParen {frames : List Frame} {lead : Lead} (span : Span) :
      Step ⟨frames, .start lead⟩ ⟨.openParen, span⟩
        ⟨.parens lead span :: frames, .start Lead.empty⟩
  | beside {frames : List Frame} {lead : Lead} {term : Term} {lexeme : Lexeme}
      {next : ParseState} :
      juxtaposes frames = true → Step ⟨frames, .start (lead.beside term)⟩ lexeme next →
      Step ⟨frames, .after lead term⟩ lexeme next
  | plus {frames : List Frame} {lead : Lead} {term : Term} (span : Span) :
      Step ⟨frames, .after lead term⟩ ⟨.plus, span⟩
        ⟨frames, .start (lead.afterPlus term span)⟩
  | slash {frames : List Frame} {lead : Lead} {term : Term} (span : Span) :
      Step ⟨frames, .after lead term⟩ ⟨.slash, span⟩
        ⟨frames, .start (lead.afterSlash term span)⟩
  | openBracket {frames : List Frame} {lead : Lead} {term : Term} (span : Span) :
      Step ⟨frames, .after lead term⟩ ⟨.openBracket, span⟩
        ⟨.content lead term span :: frames, .start Lead.empty⟩
  | closeParen {outer : List Frame} {around lead : Lead} {term : Term} (opener span : Span) :
      Step ⟨.parens around opener :: outer, .after lead term⟩ ⟨.closeParen, span⟩
        ⟨outer, .after around (.bare (.parens opener (lead.column term) span))⟩
  | closeBracket {outer : List Frame} {around lead : Lead} {target term : Term}
      (opener span : Span) :
      Step ⟨.content around target opener :: outer, .after lead term⟩ ⟨.closeBracket, span⟩
        ⟨outer, .after around (.suffixed target opener (lead.column term) span)⟩

private theorem Step.of_begin? {frames : List Frame} {lead : Lead} {lexeme : Lexeme}
    {next : ParseState} (begun : begin? frames lead lexeme = some next) :
    Step ⟨frames, .start lead⟩ lexeme next := by
  rcases lexeme with ⟨token, span⟩
  cases token with
  | name text => cases begun; exact .name text span
  | openParen => cases begun; exact .openParen span
  | plus | slash | openBracket | closeBracket | closeParen => cases begun

private theorem Step.of_close? {frames : List Frame} {lead : Lead} {term : Term}
    {closer : Lexeme} {next : ParseState}
    (closed : close? frames (lead.column term) closer = some next) :
    Step ⟨frames, .after lead term⟩ closer next := by
  rcases closer with ⟨token, span⟩
  cases frames with
  | nil => cases token <;> cases closed
  | cons frame outer =>
      cases frame with
      | parens around opener =>
          cases token <;> cases closed
          exact .closeParen opener span
      | content around target opener =>
          cases token <;> cases closed
          exact .closeBracket opener span

theorem Step.of_step? {state next : ParseState} {lexeme : Lexeme}
    (taken : state.step? lexeme = some next) : Step state lexeme next := by
  rcases state with ⟨frames, start | ⟨lead, term⟩⟩
  · exact .of_begin? taken
  · rcases lexeme with ⟨token, span⟩
    cases token with
    | plus => cases taken; exact .plus span
    | slash => cases taken; exact .slash span
    | openBracket => cases taken; exact .openBracket span
    | closeBracket => exact .of_close? taken
    | closeParen => exact .of_close? taken
    | openParen =>
        simp only [step?] at taken
        split at taken
        next juxtaposed => exact .beside juxtaposed (.of_begin? taken)
        next => cases taken
    | name text =>
        simp only [step?] at taken
        split at taken
        next juxtaposed => exact .beside juxtaposed (.of_begin? taken)
        next => cases taken

end ParseState

/-! What a state has taken. -/

def Lead.lexemes (lead : Lead) : List Lexeme :=
  (lead.rows.elim [] fun (init, sign) => init.lexemes ++ [⟨.slash, sign⟩]) ++
    lead.terms.elim [] fun (init, sign) =>
      init.lexemes ++ sign.elim [] fun sign => [⟨.plus, sign⟩]

namespace Lead

@[simp] theorem lexemes_empty : empty.lexemes = [] := rfl

theorem lexemes_row (lead : Lead) (term : Term) :
    (lead.row term).lexemes = Lead.lexemes ⟨none, lead.terms⟩ ++ term.lexemes := by
  rcases lead with ⟨rows, _ | ⟨init, _ | sign⟩⟩ <;>
    simp [Lead.row, Lead.lexemes, Row.lexemes]

@[simp] theorem lexemes_column (lead : Lead) (term : Term) :
    (lead.column term).lexemes = lead.lexemes ++ term.lexemes := by
  rcases lead with ⟨_ | ⟨init, sign⟩, terms⟩ <;>
    simp [Lead.column, Column.lexemes, lexemes_row, Lead.lexemes]

@[simp] theorem lexemes_afterPlus (lead : Lead) (term : Term) (sign : Span) :
    (lead.afterPlus term sign).lexemes = lead.lexemes ++ term.lexemes ++ [⟨.plus, sign⟩] := by
  simp [afterPlus, Lead.lexemes, lexemes_row]

@[simp] theorem lexemes_beside (lead : Lead) (term : Term) :
    (lead.beside term).lexemes = lead.lexemes ++ term.lexemes := by
  simp [beside, Lead.lexemes, lexemes_row]

@[simp] theorem lexemes_afterSlash (lead : Lead) (term : Term) (sign : Span) :
    (lead.afterSlash term sign).lexemes =
      lead.lexemes ++ term.lexemes ++ [⟨.slash, sign⟩] := by
  rw [← lexemes_column]
  simp [afterSlash, Lead.lexemes]

end Lead

def Frame.lexemes : Frame → List Lexeme
  | .parens lead opener => lead.lexemes ++ [⟨.openParen, opener⟩]
  | .content lead target opener => lead.lexemes ++ target.lexemes ++ [⟨.openBracket, opener⟩]

def Cursor.lexemes : Cursor → List Lexeme
  | .start lead => lead.lexemes
  | .after lead term => lead.lexemes ++ term.lexemes

namespace ParseState

def lexemes (state : ParseState) : List Lexeme :=
  state.frames.reverse.flatMap Frame.lexemes ++ state.cursor.lexemes

theorem Step.lexemes {state next : ParseState} {lexeme : Lexeme}
    (step : Step state lexeme next) : next.lexemes = state.lexemes ++ [lexeme] := by
  induction step with
  | beside _ _ ih => simpa [ParseState.lexemes, Cursor.lexemes] using ih
  | name | openParen | plus | slash | openBracket | closeParen | closeBracket =>
      simp [ParseState.lexemes, Frame.lexemes, Cursor.lexemes, Term.lexemes,
        Primary.lexemes]

end ParseState

/-! What a state has taken is licensed. -/

structure Lead.Licensed (inside : Bool) (lead : Lead) : Prop where
  rows : ∀ init sign, lead.rows = some (init, sign) → init.Licensed inside
  terms : ∀ init sign, lead.terms = some (init, sign) → init.Licensed inside
  juxtaposed : ∀ init, lead.terms = some (init, none) → inside = true

namespace Lead

variable {inside : Bool} {lead : Lead} {term : Term}

theorem licensed_empty : empty.Licensed inside :=
  ⟨nofun, nofun, nofun⟩

theorem Licensed.row (licensed : lead.Licensed inside) (last : term.Licensed inside) :
    (lead.row term).Licensed inside := by
  rcases lead with ⟨rows, _ | ⟨init, _ | sign⟩⟩
  · exact last
  · exact ⟨licensed.juxtaposed init rfl, licensed.terms init none rfl, last⟩
  · exact ⟨licensed.terms init (some sign) rfl, last⟩

theorem Licensed.column (licensed : lead.Licensed inside) (last : term.Licensed inside) :
    (lead.column term).Licensed inside := by
  rcases lead with ⟨_ | ⟨init, sign⟩, terms⟩
  · exact licensed.row last
  · exact ⟨licensed.rows init sign rfl, licensed.row last⟩

theorem Licensed.afterPlus (licensed : lead.Licensed inside) (last : term.Licensed inside)
    (sign : Span) : (lead.afterPlus term sign).Licensed inside := by
  refine ⟨licensed.rows, ?_, nofun⟩
  intro init before equal
  cases equal
  exact licensed.row last

theorem Licensed.beside (licensed : lead.Licensed inside) (last : term.Licensed inside)
    (juxtaposed : inside = true) : (lead.beside term).Licensed inside := by
  refine ⟨licensed.rows, ?_, fun _ _ => juxtaposed⟩
  intro init before equal
  cases equal
  exact licensed.row last

theorem Licensed.afterSlash (licensed : lead.Licensed inside) (last : term.Licensed inside)
    (sign : Span) : (lead.afterSlash term sign).Licensed inside := by
  refine ⟨?_, nofun, nofun⟩
  intro init before equal
  cases equal
  exact licensed.column last

end Lead

def Cursor.Licensed (inside : Bool) : Cursor → Prop
  | .start lead => lead.Licensed inside
  | .after lead term => lead.Licensed inside ∧ term.Licensed inside

namespace ParseState

/-- Each frame is licensed as the frames around it tell. -/
def FramesLicensed : List Frame → Prop
  | [] => True
  | .parens lead _ :: outer => lead.Licensed (juxtaposes outer) ∧ FramesLicensed outer
  | .content lead target _ :: outer =>
      lead.Licensed (juxtaposes outer) ∧ target.Licensed (juxtaposes outer) ∧
        FramesLicensed outer

structure Licensed (state : ParseState) : Prop where
  frames : FramesLicensed state.frames
  cursor : state.cursor.Licensed (juxtaposes state.frames)

theorem licensed_initial : initial.Licensed :=
  ⟨trivial, Lead.licensed_empty⟩

theorem Licensed.step {state next : ParseState} {lexeme : Lexeme}
    (licensed : state.Licensed) (step : Step state lexeme next) : next.Licensed := by
  induction step with
  | name text span => exact ⟨licensed.frames, licensed.cursor, trivial⟩
  | openParen span => exact ⟨⟨licensed.cursor, licensed.frames⟩, Lead.licensed_empty⟩
  | beside juxtaposed _ ih =>
      obtain ⟨lead, term⟩ := licensed.cursor
      exact ih ⟨licensed.frames, lead.beside term juxtaposed⟩
  | plus span =>
      obtain ⟨lead, term⟩ := licensed.cursor
      exact ⟨licensed.frames, lead.afterPlus term span⟩
  | slash span =>
      obtain ⟨lead, term⟩ := licensed.cursor
      exact ⟨licensed.frames, lead.afterSlash term span⟩
  | openBracket span =>
      obtain ⟨lead, term⟩ := licensed.cursor
      exact ⟨⟨lead, term, licensed.frames⟩, Lead.licensed_empty⟩
  | closeParen opener span =>
      obtain ⟨around, outer⟩ := licensed.frames
      obtain ⟨lead, term⟩ := licensed.cursor
      exact ⟨outer, around, lead.column term⟩
  | closeBracket opener span =>
      obtain ⟨around, target, outer⟩ := licensed.frames
      obtain ⟨lead, term⟩ := licensed.cursor
      exact ⟨outer, around, target, lead.column term⟩

def advance? (state : ParseState) (lexemes : List Lexeme) : Option ParseState :=
  lexemes.foldlM step? state

@[simp] theorem advance?_nil (state : ParseState) : state.advance? [] = some state := rfl

theorem advance?_cons (state : ParseState) (lexeme : Lexeme) (rest : List Lexeme) :
    state.advance? (lexeme :: rest) = (state.step? lexeme).bind (·.advance? rest) := rfl

theorem advance?_append (state : ParseState) (front back : List Lexeme) :
    state.advance? (front ++ back) = (state.advance? front).bind (·.advance? back) := by
  simp [advance?, List.foldlM_append]

/-- Reading is right where it succeeds: all lexemes are taken, and the state is licensed. -/
theorem Licensed.advance? {state last : ParseState} {lexemes : List Lexeme}
    (licensed : state.Licensed) (taken : state.advance? lexemes = some last) :
    last.Licensed ∧ last.lexemes = state.lexemes ++ lexemes := by
  induction lexemes generalizing state with
  | nil =>
      cases taken
      exact ⟨licensed, by simp⟩
  | cons lexeme rest ih =>
      rw [advance?_cons, Option.bind_eq_some_iff] at taken
      obtain ⟨next, first, taken⟩ := taken
      have step := Step.of_step? first
      obtain ⟨lastLicensed, lexemes⟩ := ih (licensed.step step) taken
      exact ⟨lastLicensed, by simp [lexemes, step.lexemes]⟩

theorem finish?_eq_some_iff {state : ParseState} {column : Column} :
    state.finish? = some column ↔ state = ⟨[], .after column.lead column.last⟩ := by
  rcases state with ⟨_ | ⟨frame, outer⟩, lead | ⟨lead, term⟩⟩
  · simp [finish?]
  · simp only [finish?, Option.some.injEq, mk.injEq, Cursor.after.injEq, true_and]
    constructor
    · intro equal
      subst equal
      exact ⟨by simp, by simp⟩
    · intro equal
      obtain ⟨rfl, rfl⟩ := equal
      simp
  · simp [finish?]
  · simp [finish?]

theorem run_eq_ok_iff {ending : Span} {state : ParseState} {lexemes : List Lexeme}
    {column : Column} :
    state.run ending lexemes = .ok column ↔
      ∃ last, state.advance? lexemes = some last ∧ last.finish? = some column := by
  induction lexemes generalizing state with
  | nil => cases finished : state.finish? <;> simp [run, finished]
  | cons lexeme rest ih =>
      rw [run, advance?_cons]
      cases state.step? lexeme with
      | none => simp
      | some next => simpa using ih

end ParseState

/-! A licensed phrase is read to its end, wherever it may begin. -/

def Lexeme.Begins (lexeme : Lexeme) : Prop :=
  (∃ text, lexeme.token = .name text) ∨ lexeme.token = .openParen

theorem Term.lexemes_eq_cons : (term : Term) →
    ∃ first rest, term.lexemes = first :: rest ∧ first.Begins
  | .bare (.name text span) => ⟨_, _, rfl, .inl ⟨text, rfl⟩⟩
  | .bare (.parens _ _ _) => ⟨_, _, rfl, .inr rfl⟩
  | .suffixed target _ _ _ => by
      obtain ⟨first, rest, equal, begins⟩ := target.lexemes_eq_cons
      exact ⟨first, _, by rw [Term.lexemes, equal]; rfl, begins⟩

namespace ParseState

variable {frames : List Frame} {lead : Lead} {rows : Option (Column × Span)}

/-- Where terms may be juxtaposed, a term is read as if its row had just been joined. -/
theorem advance?_beside (juxtaposed : juxtaposes frames = true) (before last : Term) :
    advance? ⟨frames, .after lead before⟩ last.lexemes =
      advance? ⟨frames, .start (lead.beside before)⟩ last.lexemes := by
  obtain ⟨⟨token, span⟩, rest, equal, begins⟩ := last.lexemes_eq_cons
  rw [equal, advance?_cons, advance?_cons]
  rcases begins with ⟨text, rfl⟩ | rfl <;> simp [step?, juxtaposed]

mutual
theorem advance?_primary : (primary : Primary) → ∀ frames lead,
    primary.Licensed (juxtaposes frames) →
    advance? ⟨frames, .start lead⟩ primary.lexemes = some ⟨frames, .after lead (.bare primary)⟩
  | .name text span, frames, lead, _ => rfl
  | .parens opener body closer, frames, lead, licensed => by
      have read := advance?_column body (.parens lead opener :: frames) licensed
      rw [Primary.lexemes, advance?_cons]
      simp only [step?, begin?, Option.bind_some, advance?_append, read]
      simp [advance?_cons, step?, close?]

theorem advance?_term : (term : Term) → ∀ frames lead,
    term.Licensed (juxtaposes frames) →
    advance? ⟨frames, .start lead⟩ term.lexemes = some ⟨frames, .after lead term⟩
  | .bare head, frames, lead, licensed => advance?_primary head frames lead licensed
  | .suffixed target opener body closer, frames, lead, ⟨targetLicensed, bodyLicensed⟩ => by
      have readTarget := advance?_term target frames lead targetLicensed
      have readBody := advance?_column body (.content lead target opener :: frames) bodyLicensed
      rw [Term.lexemes, advance?_append, readTarget, Option.bind_some, advance?_cons]
      simp only [step?, Option.bind_some, advance?_append, readBody]
      simp [advance?_cons, step?, close?]

theorem advance?_row : (row : Row) → ∀ frames rows,
    row.Licensed (juxtaposes frames) →
    advance? ⟨frames, .start ⟨rows, none⟩⟩ row.lexemes =
      some ⟨frames, .after ⟨rows, row.lead⟩ row.last⟩
  | .single first, frames, rows, licensed => advance?_term first frames _ licensed
  | .plus init sign last, frames, rows, ⟨initLicensed, lastLicensed⟩ => by
      rw [Row.lexemes, advance?_append, advance?_row init frames rows initLicensed,
        Option.bind_some, advance?_cons]
      simp only [step?, Option.bind_some, Lead.afterPlus, Lead.row_lead_last]
      exact advance?_term last frames _ lastLicensed
  | .beside init last, frames, rows, ⟨juxtaposed, initLicensed, lastLicensed⟩ => by
      rw [Row.lexemes, advance?_append, advance?_row init frames rows initLicensed,
        Option.bind_some, advance?_beside juxtaposed]
      simp only [Lead.beside, Lead.row_lead_last]
      exact advance?_term last frames _ lastLicensed

theorem advance?_column : (column : Column) → ∀ frames,
    column.Licensed (juxtaposes frames) →
    advance? ⟨frames, .start Lead.empty⟩ column.lexemes =
      some ⟨frames, .after column.lead column.last⟩
  | .single first, frames, licensed => advance?_row first frames none licensed
  | .slash init sign last, frames, ⟨initLicensed, lastLicensed⟩ => by
      rw [Column.lexemes, advance?_append, advance?_column init frames initLicensed,
        Option.bind_some, advance?_cons]
      simp only [step?, Option.bind_some, Lead.afterSlash, Column.lead_column_last]
      exact advance?_row last frames _ lastLicensed
end

end ParseState

theorem Column.derives_iff {column : Column} {lexemes : List Lexeme} :
    column.Derives lexemes ↔
      ParseState.initial.advance? lexemes = some ⟨[], .after column.lead column.last⟩ := by
  constructor
  · intro derives
    obtain ⟨licensed, rfl⟩ := derives
    exact ParseState.advance?_column column [] licensed
  · intro taken
    obtain ⟨⟨_, lead, last⟩, spelled⟩ := ParseState.licensed_initial.advance? taken
    constructor
    · rw [← column.lead_column_last]
      exact lead.column last
    · simpa [ParseState.lexemes, Cursor.lexemes, ParseState.initial,
        ← Lead.lexemes_column] using spelled

theorem Column.ofLexemes_eq_ok_iff {size : Nat} {lexemes : List Lexeme} {column : Column} :
    Column.ofLexemes size lexemes = .ok column ↔ column.Derives lexemes := by
  simp only [Column.ofLexemes, ParseState.run_eq_ok_iff, ParseState.finish?_eq_some_iff,
    Column.derives_iff, exists_eq_right]

/-- A text has one derivation at most. -/
theorem Column.Derives.unique {first second : Column} {lexemes : List Lexeme}
    (derives : first.Derives lexemes) (other : second.Derives lexemes) : first = second := by
  have equal : Column.ofLexemes 0 lexemes = .ok first := Column.ofLexemes_eq_ok_iff.mpr derives
  rw [Column.ofLexemes_eq_ok_iff.mpr other] at equal
  exact (Except.ok.inj equal).symm

/-- Reading accepts exactly the texts of the grammar whose contents all belong to plain
entities, and gives what their one derivation denotes. -/
theorem Expr.ofLexemes_ok_iff_denotes (size : Nat) (lexemes : List Lexeme) :
    ((∃ expression, Expr.ofLexemes size lexemes = .ok expression) ↔
        ∃ column : Column, column.Derives lexemes ∧ column.Targeted) ∧
      (∀ expression, Expr.ofLexemes size lexemes = .ok expression ↔
        ∃ column : Column, column.Derives lexemes ∧ column.Denotes expression) ∧
      ∀ first second : Column,
        first.Derives lexemes → second.Derives lexemes → first = second := by
  have reads : ∀ expression, Expr.ofLexemes size lexemes = .ok expression ↔
      ∃ column : Column, column.Derives lexemes ∧ column.Denotes expression := by
    intro expression
    simp only [Expr.ofLexemes, bind_eq_ok_iff, mapError_eq_ok_iff,
      Column.ofLexemes_eq_ok_iff, Column.denote_eq_ok_iff]
  refine ⟨?_, reads, fun _ _ => Column.Derives.unique⟩
  simp only [reads, ← Column.exists_denotes_iff]
  constructor
  · intro read
    obtain ⟨expression, column, derives, denotes⟩ := read
    exact ⟨column, derives, expression, denotes⟩
  · intro denoted
    obtain ⟨column, derives, expression, denotes⟩ := denoted
    exact ⟨expression, column, derives, denotes⟩

end Wireframe
