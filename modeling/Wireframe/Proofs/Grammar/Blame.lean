import Wireframe.Proofs.Grammar.Rejection
import Wireframe.Proofs.Grammar.Tiling

/-! What an error of layout text points at: the character or the token that it names, the
term whose target takes no content, or the end of the text. -/

namespace Wireframe

open Text

/-! Terms that have no meaning. -/

mutual
/-- The terms of a phrase at any depth, but for those that are the target of a content. -/
def Primary.terms : Primary → List Term
  | .name _ _ => []
  | .parens _ body _ => body.terms

def Term.inner : Term → List Term
  | .bare head => head.terms
  | .suffixed target _ content _ => target.inner ++ content.terms

def Row.terms : Row → List Term
  | .single first => first :: first.inner
  | .plus init _ last => init.terms ++ last :: last.inner
  | .beside init last => init.terms ++ last :: last.inner

def Column.terms : Column → List Term
  | .single first => first.terms
  | .slash init _ last => init.terms ++ last.terms
end

/-- A term in which something other than a plain entity is given a content. -/
def Term.Offends : Term → Prop
  | .bare _ => False
  | .suffixed target _ _ _ =>
      target.Offends ∨ ∃ expression, target.Denotes expression ∧
        ∀ name, expression ≠ .entity name

/-- One of some terms offends, and it has the given span. -/
def Term.Blamed (terms : List Term) (span : Span) : Prop :=
  ∃ term ∈ terms, term.Offends ∧ term.span = span

theorem Term.Blamed.mono {terms others : List Term} {span : Span} (blamed : Blamed terms span)
    (within : terms ⊆ others) : Blamed others span := by
  obtain ⟨term, member, rest⟩ := blamed
  exact ⟨term, within member, rest⟩

private theorem snoc_eq_error {first : Except ε (List α)} {last : Except ε β} {change : β → α}
    {cause : ε}
    (failed : (do let items ← first; return items ++ [change (← last)]) = .error cause) :
    first = .error cause ∨ last = .error cause := by
  rcases bind_eq_error_iff.mp failed with before | ⟨items, -, after⟩
  · exact .inl before
  · rcases bind_eq_error_iff.mp after with here | ⟨item, -, nothing⟩
    · exact .inr here
    · cases nothing

mutual
theorem Primary.blamed_of_denote : (primary : Primary) → {span : Span} →
    primary.denote = .error span → Term.Blamed primary.terms span
  | .name text span, _, failed => by cases failed
  | .parens opener body closer, span, failed => by
      exact body.blamed_of_denoteRows (map_eq_error_iff.mp failed)

/-- A term fails to denote as a whole, or for the sake of a term inside it. -/
theorem Term.offends_of_denoteIn (whole : Span) : (term : Term) → {span : Span} →
    term.denoteIn whole = .error span →
    (term.Offends ∧ whole = span) ∨ Term.Blamed term.inner span
  | .bare head, span, failed => .inr (head.blamed_of_denote failed)
  | .suffixed target opener content closer, span, failed => by
      rcases bind_eq_error_iff.mp failed with inTarget | ⟨owner, read, after⟩
      · rcases target.offends_of_denoteIn whole inTarget with ⟨offends, same⟩ | blamed
        · exact .inl ⟨.inl offends, same⟩
        · exact .inr (blamed.mono (List.subset_append_left _ _))
      · have denotes := (target.denoteIn_eq_ok_iff whole).mp read
        cases owner with
        | entity name =>
            rcases bind_eq_error_iff.mp after with inContent | ⟨rows, -, nothing⟩
            · exact .inr ((content.blamed_of_denoteRows inContent).mono
                (List.subset_append_right _ _))
            · cases nothing
        | group direction children =>
            cases after
            exact .inl ⟨.inr ⟨_, denotes, nofun⟩, rfl⟩
        | container name inside =>
            cases after
            exact .inl ⟨.inr ⟨_, denotes, nofun⟩, rfl⟩

theorem Term.blamed_of_denoteIn (term : Term) {span : Span}
    (failed : term.denoteIn term.span = .error span) : Term.Blamed (term :: term.inner) span := by
  rcases term.offends_of_denoteIn term.span failed with ⟨offends, same⟩ | blamed
  · exact ⟨term, List.mem_cons_self, offends, same⟩
  · exact blamed.mono (List.subset_cons_self _ _)

theorem Row.blamed_of_denoteTerms : (row : Row) → {span : Span} →
    row.denoteTerms = .error span → Term.Blamed row.terms span
  | .single first, span, failed => by
      rcases bind_eq_error_iff.mp failed with inFirst | ⟨item, -, nothing⟩
      · exact first.blamed_of_denoteIn inFirst
      · cases nothing
  | .plus init _ last, span, failed => by
      rcases snoc_eq_error failed with before | here
      · exact (init.blamed_of_denoteTerms before).mono (List.subset_append_left _ _)
      · exact (last.blamed_of_denoteIn here).mono (List.subset_append_right _ _)
  | .beside init last, span, failed => by
      rcases snoc_eq_error failed with before | here
      · exact (init.blamed_of_denoteTerms before).mono (List.subset_append_left _ _)
      · exact (last.blamed_of_denoteIn here).mono (List.subset_append_right _ _)

theorem Column.blamed_of_denoteRows : (column : Column) → {span : Span} →
    column.denoteRows = .error span → Term.Blamed column.terms span
  | .single first, span, failed => by
      rcases bind_eq_error_iff.mp failed with inFirst | ⟨items, -, nothing⟩
      · exact first.blamed_of_denoteTerms inFirst
      · cases nothing
  | .slash init _ last, span, failed => by
      rcases snoc_eq_error failed with before | here
      · exact (init.blamed_of_denoteRows before).mono (List.subset_append_left _ _)
      · exact (last.blamed_of_denoteTerms here).mono (List.subset_append_right _ _)
end

/-! Where terms stand. -/

mutual
theorem Primary.isInfix_of_mem_terms : (primary : Primary) → {term : Term} →
    term ∈ primary.terms → term.lexemes <:+: primary.lexemes
  | .name _ _, _, member => by cases member
  | .parens _ body _, _, member => by
      rw [Primary.lexemes]
      exact ((body.isInfix_of_mem_terms member).trans (List.prefix_append _ _).isInfix).trans
        (List.suffix_cons _ _).isInfix

theorem Term.isInfix_of_mem_inner : (whole : Term) → {term : Term} →
    term ∈ whole.inner → term.lexemes <:+: whole.lexemes
  | .bare head, _, member => head.isInfix_of_mem_terms member
  | .suffixed target opener content closer, _, member => by
      rw [Term.lexemes]
      cases List.mem_append.mp member with
      | inl inTarget =>
          exact (target.isInfix_of_mem_inner inTarget).trans (List.prefix_append _ _).isInfix
      | inr inContent =>
          refine (content.isInfix_of_mem_terms inContent).trans ?_
          rw [List.append_cons, ← List.append_assoc]
          exact List.infix_append _ content.lexemes _

theorem Term.isInfix_of_mem_cons_inner (whole : Term) {term : Term}
    (member : term ∈ whole :: whole.inner) : term.lexemes <:+: whole.lexemes := by
  cases List.mem_cons.mp member with
  | inl same => exact same ▸ List.infix_rfl
  | inr inside => exact whole.isInfix_of_mem_inner inside

theorem Row.isInfix_of_mem_terms : (row : Row) → {term : Term} →
    term ∈ row.terms → term.lexemes <:+: row.lexemes
  | .single first, _, member => first.isInfix_of_mem_cons_inner member
  | .plus init sign last, _, member => by
      rw [Row.lexemes]
      cases List.mem_append.mp member with
      | inl before =>
          exact (init.isInfix_of_mem_terms before).trans (List.prefix_append _ _).isInfix
      | inr here =>
          refine (last.isInfix_of_mem_cons_inner here).trans ?_
          rw [List.append_cons]
          exact (List.suffix_append _ _).isInfix
  | .beside init last, _, member => by
      rw [Row.lexemes]
      cases List.mem_append.mp member with
      | inl before =>
          exact (init.isInfix_of_mem_terms before).trans (List.prefix_append _ _).isInfix
      | inr here =>
          exact (last.isInfix_of_mem_cons_inner here).trans (List.suffix_append _ _).isInfix

theorem Column.isInfix_of_mem_terms : (column : Column) → {term : Term} →
    term ∈ column.terms → term.lexemes <:+: column.lexemes
  | .single first, _, member => first.isInfix_of_mem_terms member
  | .slash init sign last, _, member => by
      rw [Column.lexemes]
      cases List.mem_append.mp member with
      | inl before =>
          exact (init.isInfix_of_mem_terms before).trans (List.prefix_append _ _).isInfix
      | inr here =>
          refine (last.isInfix_of_mem_terms here).trans ?_
          rw [List.append_cons]
          exact (List.suffix_append _ _).isInfix
end

theorem Term.exists_first : (term : Term) →
    ∃ first rest, term.lexemes = first :: rest ∧ first.span.start = term.span.start
  | .bare (.name _ _) => ⟨_, _, rfl, rfl⟩
  | .bare (.parens _ _ _) => ⟨_, _, rfl, rfl⟩
  | .suffixed target _ _ _ => by
      obtain ⟨first, rest, equal, start⟩ := target.exists_first
      exact ⟨first, _, by rw [Term.lexemes, equal]; rfl, start⟩

/-- A lexeme of a text that stands there with nothing but `before` to its left. -/
structure Lexeme.Stands (before rest : List Char) (lexeme : Lexeme) : Prop where
  scanned : ∃ lexemes, Lexeme.scan (before ++ rest) = .ok lexemes ∧ lexeme ∈ lexemes
  start : lexeme.span.start = byteSize before
  stop : lexeme.span.stop = byteSize before + byteSize lexeme.token.text.toList
  isPrefix : lexeme.token.text.toList <+: rest

theorem Lexeme.exists_stands {text : List Char} {lexemes : List Lexeme} {lexeme : Lexeme}
    (scanned : Lexeme.scan text = .ok lexemes) (member : lexeme ∈ lexemes) :
    ∃ before rest, text = before ++ rest ∧ lexeme.Stands before rest := by
  obtain ⟨before, after, split, starts, stops⟩ := (Lexeme.scan_eq_ok_iff.mp scanned).stands _ member
  rw [List.append_assoc] at split
  rw [Nat.zero_add] at starts
  refine ⟨before, _, split, ⟨lexemes, by rw [← split, scanned], member⟩, starts, ?_,
    List.prefix_append _ _⟩
  rw [stops, starts]

/-- The error of the text `before ++ rest` names what `rest` begins with, or that nothing
is left there. -/
inductive LayoutError.Blames (before rest : List Char) : LayoutError → Prop
  | char {c : Char} {after : List Char} :
      rest = c :: after → Token.Foreign c → Blames before rest (.scan ⟨c, byteSize before⟩)
  | token {found : Token} {span : Span} {expected : List Token} :
      Lexeme.Stands before rest ⟨found, span⟩ →
      Blames before rest (.parse (.unexpectedToken found span expected))
  | trailing {found : Token} {span : Span} :
      Lexeme.Stands before rest ⟨found, span⟩ →
      Blames before rest (.parse (.trailingInput found span))
  | container {lexemes later : List Lexeme} {first : Lexeme} {column : Column} {term : Term} :
      Lexeme.scan (before ++ rest) = .ok lexemes → column.Derives lexemes →
      term ∈ column.terms → term.Offends →
      term.lexemes = first :: later → Lexeme.Stands before rest first →
      Blames before rest (.parse (.invalidContainer term.span))
  | ending {stop : Nat} {expected : List Token} :
      rest = [] → Blames before rest (.parse (.unexpectedEnd ⟨byteSize before, stop⟩ expected))

namespace Expr

variable {text : List Char}

theorem blames_of_rejected {lexemes : List Lexeme} {error : ParseError}
    (scanned : Lexeme.scan text = .ok lexemes)
    (rejected : Rejected (byteSize text) lexemes error) :
    ∃ before rest, text = before ++ rest ∧ error.span.start = byteSize before ∧
      LayoutError.Blames before rest (.parse error) := by
  cases rejected with
  | trailing split _ _ =>
      obtain ⟨before, rest, rfl, stands⟩ :=
        Lexeme.exists_stands scanned (split ▸ List.mem_append_right _ List.mem_cons_self)
      exact ⟨before, rest, rfl, stands.start, .trailing stands⟩
  | token split _ _ _ _ =>
      obtain ⟨before, rest, rfl, stands⟩ :=
        Lexeme.exists_stands scanned (split ▸ List.mem_append_right _ List.mem_cons_self)
      exact ⟨before, rest, rfl, stands.start, .token stands⟩
  | ending _ _ _ => exact ⟨text, [], by simp, rfl, .ending rfl⟩

theorem blames_of_denote {lexemes : List Lexeme} {column : Column} {span : Span}
    (scanned : Lexeme.scan text = .ok lexemes) (derives : column.Derives lexemes)
    (failed : column.denote = .error span) :
    ∃ before rest, text = before ++ rest ∧ span.start = byteSize before ∧
      LayoutError.Blames before rest (.parse (.invalidContainer span)) := by
  obtain ⟨term, member, offends, rfl⟩ :=
    column.blamed_of_denoteRows (map_eq_error_iff.mp failed)
  obtain ⟨first, later, begins, start⟩ := term.exists_first
  have inside : first ∈ lexemes := by
    rw [← derives.spells]
    exact (column.isInfix_of_mem_terms member).subset (begins ▸ List.mem_cons_self)
  obtain ⟨before, rest, rfl, stands⟩ := Lexeme.exists_stands scanned inside
  exact ⟨before, rest, rfl, start ▸ stands.start,
    .container scanned derives member offends begins stands⟩

/-- The position of an error is that of what it names. -/
theorem exists_blames {error : LayoutError} (failed : Expr.parse text = .error error) :
    ∃ before rest, text = before ++ rest ∧ error.offset = byteSize before ∧
      error.Blames before rest := by
  rcases bind_eq_error_iff.mp failed with unscanned | ⟨lexemes, scanned, refused⟩
  · obtain ⟨⟨c, offset⟩, caught, rfl⟩ := mapError_eq_error_iff.mp unscanned
    obtain ⟨before, after, rfl, rfl, foreign, -, -⟩ := Lexeme.exists_of_scan_error caught
    exact ⟨before, _, rfl, rfl, .char rfl foreign⟩
  · have scanned := mapError_eq_ok_iff.mp scanned
    obtain ⟨cause, caught, rfl⟩ := mapError_eq_error_iff.mp refused
    by_cases sentence : Sentence lexemes
    · obtain ⟨column, derives⟩ := sentence
      rcases bind_eq_error_iff.mp caught with underived | ⟨other, derived, denied⟩
      · rw [Column.ofLexemes_eq_ok_iff.mpr derives] at underived
        cases underived
      · obtain ⟨span, undenoted, rfl⟩ := mapError_eq_error_iff.mp denied
        exact blames_of_denote scanned (Column.ofLexemes_eq_ok_iff.mp derived) undenoted
    · obtain ⟨other, rejected⟩ := exists_rejected (byteSize text) sentence
      have same := rejected.reads
      rw [caught] at same
      obtain rfl := Except.error.inj same
      exact blames_of_rejected scanned rejected

end Expr

end Wireframe
