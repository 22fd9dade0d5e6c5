import Wireframe.Proofs.Grammar.Reading

/-! Errors of syntax, told by the grammar alone. Reading stops at the first lexeme that
no continuation can mend, or at the end of lexemes that more could have completed, and
names the marks that could have stood there. -/

namespace Wireframe

open Text

/-- Lexemes that a sentence begins with. -/
def Extendable (lexemes : List Lexeme) : Prop :=
  ∃ rest, Sentence (lexemes ++ rest)

/-- The marks that may stand after some lexemes, in the order of their texts. -/
structure Expects (accepted : List Lexeme) (expected : List Token) : Prop where
  sorted : expected.Pairwise (·.text < ·.text)
  mem_iff : ∀ token span, token ∈ expected ↔
    (∀ text, token ≠ .name text) ∧ Extendable (accepted ++ [⟨token, span⟩])

/-- Where and why lexemes are no sentence. -/
inductive Rejected (size : Nat) (lexemes : List Lexeme) : ParseError → Prop
  | trailing {accepted rest : List Lexeme} {lexeme : Lexeme} :
      lexemes = accepted ++ lexeme :: rest → Sentence accepted →
      ¬ Extendable (accepted ++ [lexeme]) →
      Rejected size lexemes (.trailingInput lexeme.token lexeme.span)
  | token {accepted rest : List Lexeme} {lexeme : Lexeme} {expected : List Token} :
      lexemes = accepted ++ lexeme :: rest → Extendable accepted → ¬ Sentence accepted →
      ¬ Extendable (accepted ++ [lexeme]) → Expects accepted expected →
      Rejected size lexemes (.unexpectedToken lexeme.token lexeme.span expected)
  | ending {expected : List Token} :
      Extendable lexemes → ¬ Sentence lexemes → Expects lexemes expected →
      Rejected size lexemes
        (.unexpectedEnd ⟨size, (lexemes.getLast?.map (·.span.stop)).getD size⟩ expected)

/-! The grammar seen through the states of reading. -/

theorem sentence_iff {lexemes : List Lexeme} :
    Sentence lexemes ↔
      ∃ state, ParseState.initial.advance? lexemes = some state ∧ state.finish?.isSome := by
  simp only [Sentence, Column.derives_iff, Option.isSome_iff_exists,
    ParseState.finish?_eq_some_iff]
  constructor
  · intro sentence
    obtain ⟨column, taken⟩ := sentence
    exact ⟨_, taken, column, rfl⟩
  · intro finished
    obtain ⟨state, taken, column, rfl⟩ := finished
    exact ⟨column, taken⟩

namespace ParseState

private theorem exists_closing : (frames : List Frame) → (lead : Lead) → (term : Term) →
    ∃ rest column, advance? ⟨frames, .after lead term⟩ rest =
      some ⟨[], .after (Column.lead column) column.last⟩
  | [], lead, term => ⟨[], lead.column term, by simp⟩
  | .parens around opener :: outer, lead, term => by
      obtain ⟨rest, column, taken⟩ := exists_closing outer around
        (.bare (.parens opener (lead.column term) ⟨0, 0⟩))
      exact ⟨⟨.closeParen, ⟨0, 0⟩⟩ :: rest, column, taken⟩
  | .content around target opener :: outer, lead, term => by
      obtain ⟨rest, column, taken⟩ := exists_closing outer around
        (.suffixed target opener (lead.column term) ⟨0, 0⟩)
      exact ⟨⟨.closeBracket, ⟨0, 0⟩⟩ :: rest, column, taken⟩

/-- No state is a dead end. -/
theorem exists_completion (state : ParseState) :
    ∃ rest last, state.advance? rest = some last ∧ last.finish?.isSome := by
  -- a missing term is supplied first, and then every open bracket is closed
  rcases state with ⟨frames, lead | ⟨lead, term⟩⟩
  · obtain ⟨rest, column, taken⟩ := exists_closing frames lead (.bare (.name "a" ⟨0, 0⟩))
    exact ⟨⟨.name "a", ⟨0, 0⟩⟩ :: rest, _, taken, by simp [finish?]⟩
  · obtain ⟨rest, column, taken⟩ := exists_closing frames lead term
    exact ⟨rest, _, taken, by simp [finish?]⟩

end ParseState

theorem extendable_iff {lexemes : List Lexeme} :
    Extendable lexemes ↔ (ParseState.initial.advance? lexemes).isSome := by
  simp only [Extendable, sentence_iff, ParseState.advance?_append]
  cases taken : ParseState.initial.advance? lexemes with
  | none => simp
  | some state => simpa using state.exists_completion

instance : DecidablePred Sentence := fun lexemes =>
  decidable_of_iff ((ParseState.initial.advance? lexemes).any (·.finish?.isSome)) (by
    rw [sentence_iff, Option.any_eq_true])

instance : DecidablePred Extendable := fun _ => decidable_of_iff _ extendable_iff.symm

namespace ParseState

theorem isSome_step?_span (state : ParseState) (token : Token) (span other : Span) :
    (state.step? ⟨token, span⟩).isSome = (state.step? ⟨token, other⟩).isSome := by
  rcases state with ⟨frames, lead | ⟨lead, term⟩⟩
  · cases token <;> rfl
  · cases token with
    | plus | slash | openBracket => rfl
    | closeBracket | closeParen =>
        rcases frames with _ | ⟨frame | frame, outer⟩ <;> rfl
    | openParen | name =>
        simp only [step?]
        split <;> rfl

theorem mem_marks_iff {state : ParseState} {token : Token} (span : Span) :
    token ∈ state.marks ↔
      (∀ text, token ≠ .name text) ∧ (state.step? ⟨token, span⟩).isSome := by
  rw [marks, List.mem_filter, state.isSome_step?_span token span ⟨0, 0⟩]
  cases token <;> simp

theorem sorted_marks (state : ParseState) : state.marks.Pairwise (·.text < ·.text) :=
  List.Pairwise.filter _ (by decide)

theorem isSome_step?_iff {accepted : List Lexeme} {state : ParseState} {lexeme : Lexeme}
    (taken : initial.advance? accepted = some state) :
    (state.step? lexeme).isSome ↔ Extendable (accepted ++ [lexeme]) := by
  rw [extendable_iff, advance?_append, taken, Option.bind_some, advance?_cons]
  cases state.step? lexeme <;> simp

theorem expects_marks {accepted : List Lexeme} {state : ParseState}
    (taken : initial.advance? accepted = some state) : Expects accepted state.marks :=
  ⟨state.sorted_marks, fun token span => by
    rw [mem_marks_iff span, isSome_step?_iff taken]⟩

end ParseState

theorem Expects.nodup {accepted : List Lexeme} {expected : List Token}
    (expects : Expects accepted expected) : expected.Nodup := by
  refine expects.sorted.imp fun before equal => ?_
  rw [equal] at before
  exact String.lt_irrefl _ before

theorem Expects.unique {accepted : List Lexeme} {first second : List Token}
    (expects : Expects accepted first) (other : Expects accepted second) : first = second := by
  have perm : first.Perm second := by
    refine (List.perm_ext_iff_of_nodup expects.nodup other.nodup).mpr fun token => ?_
    rw [expects.mem_iff token ⟨0, 0⟩, other.mem_iff token ⟨0, 0⟩]
  refine perm.eq_of_pairwise (fun token later _ _ before after => ?_)
    expects.sorted other.sorted
  exact absurd (String.lt_trans before after) (String.lt_irrefl _)

theorem Token.quoted_lt {first second : Token} (firstMark : ∀ text, first ≠ .name text)
    (secondMark : ∀ text, second ≠ .name text) (before : first.text < second.text) :
    first.quoted < second.quoted := by
  cases first with
  | name text => exact absurd rfl (firstMark text)
  | plus | slash | openBracket | closeBracket | openParen | closeParen =>
      cases second with
      | name text => exact absurd rfl (secondMark text)
      | plus | slash | openBracket | closeBracket | openParen | closeParen =>
          revert before
          decide

theorem Expects.sorted_quoted {accepted : List Lexeme} {expected : List Token}
    (expects : Expects accepted expected) : (expected.map Token.quoted).Pairwise (· < ·) := by
  have marks : ∀ token ∈ expected, ∀ text, token ≠ .name text := fun token member =>
    ((expects.mem_iff token ⟨0, 0⟩).mp member).1
  rw [List.pairwise_map]
  exact expects.sorted.imp_of_mem fun first second =>
    Token.quoted_lt (marks _ first) (marks _ second)

/-- What an error of syntax expects is shown in order, each mark once. -/
theorem Rejected.sorted_expected {size : Nat} {lexemes : List Lexeme} {error : ParseError}
    (rejected : Rejected size lexemes error) : error.expected.Pairwise (· < ·) := by
  cases rejected with
  | trailing => exact .nil
  | token _ _ _ _ expects => exact expects.sorted_quoted
  | ending _ _ expects => exact expects.sorted_quoted

/-! Where reading stops. -/

namespace ParseState

theorem run_append {state next : ParseState} {ending : Span} {front back : List Lexeme}
    (taken : state.advance? front = some next) :
    state.run ending (front ++ back) = next.run ending back := by
  induction front generalizing state with
  | nil =>
      cases taken
      rfl
  | cons lexeme front ih =>
      rw [advance?_cons, Option.bind_eq_some_iff] at taken
      obtain ⟨middle, first, taken⟩ := taken
      simp only [List.cons_append, run, first]
      exact ih taken

theorem exists_stuck {state : ParseState} {lexemes : List Lexeme}
    (stuck : state.advance? lexemes = none) :
    ∃ accepted lexeme rest reached, lexemes = accepted ++ lexeme :: rest ∧
      state.advance? accepted = some reached ∧ reached.step? lexeme = none := by
  induction lexemes generalizing state with
  | nil => cases stuck
  | cons lexeme rest ih =>
      rw [advance?_cons] at stuck
      cases first : state.step? lexeme with
      | none => exact ⟨[], lexeme, rest, state, rfl, rfl, first⟩
      | some next =>
          rw [first, Option.bind_some] at stuck
          obtain ⟨accepted, later, back, reached, rfl, taken, refused⟩ := ih stuck
          exact ⟨lexeme :: accepted, later, back, reached, rfl,
            by rw [advance?_cons, first, Option.bind_some, taken], refused⟩

end ParseState

theorem Expr.ofLexemes_stuck {accepted : List Lexeme} {state : ParseState} {lexeme : Lexeme}
    (size : Nat) (rest : List Lexeme)
    (taken : ParseState.initial.advance? accepted = some state)
    (refused : ¬ Extendable (accepted ++ [lexeme])) :
    Expr.ofLexemes size (accepted ++ lexeme :: rest) = .error (state.reject lexeme) := by
  have stuck : state.step? lexeme = none := by
    simpa [← ParseState.isSome_step?_iff taken] using refused
  simp [Expr.ofLexemes, Column.ofLexemes, ParseState.run_append taken, ParseState.run, stuck,
    bind, Except.bind]

theorem Expr.ofLexemes_ending {lexemes : List Lexeme} {state : ParseState} (size : Nat)
    (taken : ParseState.initial.advance? lexemes = some state)
    (underived : ¬ Sentence lexemes) :
    Expr.ofLexemes size lexemes =
      .error (.unexpectedEnd (Lexeme.ending size lexemes) state.marks) := by
  have unfinished : state.finish? = none := by
    simpa [sentence_iff, taken] using underived
  have run : ParseState.initial.run (Lexeme.ending size lexemes) (lexemes ++ []) =
      state.run (Lexeme.ending size lexemes) [] := ParseState.run_append taken
  rw [List.append_nil] at run
  simp [Expr.ofLexemes, Column.ofLexemes, run, ParseState.run, unfinished, bind, Except.bind]

theorem Rejected.reads {size : Nat} {lexemes : List Lexeme} {error : ParseError}
    (rejected : Rejected size lexemes error) :
    Expr.ofLexemes size lexemes = .error error := by
  cases rejected with
  | @trailing accepted rest lexeme split sentence refused =>
      obtain ⟨state, taken, finished⟩ := sentence_iff.mp sentence
      rw [split, Expr.ofLexemes_stuck size rest taken refused, ParseState.reject,
        if_pos finished]
  | @token accepted rest lexeme expected split extendable unfinished refused expects =>
      obtain ⟨state, taken⟩ := Option.isSome_iff_exists.mp (extendable_iff.mp extendable)
      have notFinished : ¬ state.finish?.isSome := fun finished =>
        unfinished (sentence_iff.mpr ⟨state, taken, finished⟩)
      rw [split, Expr.ofLexemes_stuck size rest taken refused, ParseState.reject,
        if_neg notFinished, expects.unique (ParseState.expects_marks taken)]
  | ending extendable underived expects =>
      obtain ⟨state, taken⟩ := Option.isSome_iff_exists.mp (extendable_iff.mp extendable)
      rw [Expr.ofLexemes_ending size taken underived,
        expects.unique (ParseState.expects_marks taken), Lexeme.ending]
      cases lexemes.getLast? <;> rfl

theorem exists_rejected (size : Nat) {lexemes : List Lexeme} (underived : ¬ Sentence lexemes) :
    ∃ error, Rejected size lexemes error := by
  cases taken : ParseState.initial.advance? lexemes with
  | some state =>
      exact ⟨_, .ending (extendable_iff.mpr (by simp [taken])) underived
        (ParseState.expects_marks taken)⟩
  | none =>
      obtain ⟨accepted, lexeme, rest, state, split, reached, stuck⟩ :=
        ParseState.exists_stuck taken
      have refused : ¬ Extendable (accepted ++ [lexeme]) := by
        simp [← ParseState.isSome_step?_iff reached, stuck]
      by_cases sentence : Sentence accepted
      · exact ⟨_, .trailing split sentence refused⟩
      · exact ⟨_, .token split (extendable_iff.mpr (by simp [reached])) sentence refused
          (ParseState.expects_marks reached)⟩

/-- Lexemes without a derivation are rejected for one reason, and reading gives it. The
place of an unexpected end is empty and at the end of the text only where the last lexeme
ends there too. -/
theorem Expr.ofLexemes_error_of_not_sentence (size : Nat) (lexemes : List Lexeme)
    (underived : ¬ Sentence lexemes) :
    ∃ error, Expr.ofLexemes size lexemes = .error error ∧
      (∀ other, Rejected size lexemes other ↔ other = error) ∧
      ∀ span expected, error = .unexpectedEnd span expected →
        (span = ⟨size, size⟩ ↔ ∀ last, lexemes.getLast? = some last → last.span.stop = size) := by
  obtain ⟨error, rejected⟩ := exists_rejected size underived
  refine ⟨error, rejected.reads, fun other => ?_, ?_⟩
  · constructor
    · intro otherRejected
      have equal := otherRejected.reads
      rw [rejected.reads] at equal
      exact (Except.error.inj equal).symm
    · intro equal
      subst equal
      exact rejected
  · intro span expected ended
    subst ended
    cases rejected
    cases lexemes.getLast? <;> simp

/-- A blank after the last lexeme turns the place of an unexpected end around. -/
theorem Expr.ofLexemes_unfinished_plus :
    Expr.ofLexemes 3 [⟨.name "a", ⟨0, 1⟩⟩, ⟨.plus, ⟨1, 2⟩⟩] =
      .error (.unexpectedEnd ⟨3, 2⟩ [.openParen]) :=
  rfl

theorem Expr.ofLexemes_error_of_unfinished_plus :
    let lexemes : List Lexeme := [⟨.name "a", ⟨0, 1⟩⟩, ⟨.plus, ⟨1, 2⟩⟩]
    ¬ Sentence lexemes ∧
      ∃ error, Expr.ofLexemes 3 lexemes = .error error ∧
        (∀ other, Rejected 3 lexemes other ↔ other = error) ∧
        ∀ span expected, error = .unexpectedEnd span expected →
          (span = ⟨3, 3⟩ ↔ ∀ last, lexemes.getLast? = some last → last.span.stop = 3) := by
  intro lexemes
  have underived : ¬ Sentence lexemes := by decide
  exact ⟨underived, Expr.ofLexemes_error_of_not_sentence 3 lexemes underived⟩

end Wireframe
