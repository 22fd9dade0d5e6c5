import Mathlib.Data.List.Nodup
import Wireframe.Proofs.Grammar.Blame

/-! Which bracket is to blame where a content belongs to no plain entity. Meaning is given to the
target of a content before the content itself and to terms from left to right, so the first
failure is that of the leftmost bracket with such a target, and its place is the whole term. -/

namespace Wireframe

open Text

/-- A bracket that opens a content: the number of lexemes before the term that it belongs to, what
stands before it in that term, and the whole term. -/
structure Suffix where
  start : Nat
  target : Term
  owner : Term

namespace Suffix

/-- The number of lexemes before the bracket. -/
def position (suffix : Suffix) : Nat :=
  suffix.start + suffix.target.lexemes.length

/-- What stands before the bracket denotes a plain entity. -/
def Legal (suffix : Suffix) : Prop :=
  ∃ name, suffix.target.Denotes (.entity name)

end Suffix

mutual
/-- The brackets of a phrase that has `start` lexemes before it, from left to right. -/
def Primary.suffixes (start : Nat) : Primary → List Suffix
  | .name _ _ => []
  | .parens _ body _ => body.suffixes (start + 1)

/-- The brackets of a term with which `owner` begins. -/
def Term.suffixesIn (owner : Term) (start : Nat) : Term → List Suffix
  | .bare head => head.suffixes start
  | .suffixed target _ content _ =>
      owner.suffixesIn start target ++ ⟨start, target, owner⟩ ::
        content.suffixes (start + target.lexemes.length + 1)

def Row.suffixes (start : Nat) : Row → List Suffix
  | .single first => first.suffixesIn start first
  | .plus init _ last =>
      init.suffixes start ++ last.suffixesIn (start + init.lexemes.length + 1) last
  | .beside init last =>
      init.suffixes start ++ last.suffixesIn (start + init.lexemes.length) last

def Column.suffixes (start : Nat) : Column → List Suffix
  | .single first => first.suffixes start
  | .slash init _ last =>
      init.suffixes start ++ last.suffixes (start + init.lexemes.length + 1)
end

/-! The order of the brackets is that of the text. -/

namespace Lexeme

/-- Where the opening brackets are among lexemes that have `start` others before them. -/
def openings (start : Nat) (lexemes : List Lexeme) : List Nat :=
  ((lexemes.zipIdx start).filter fun (lexeme, _) => lexeme.token = .openBracket).map Prod.snd

theorem openings_nil (start : Nat) : openings start [] = [] := rfl

theorem openings_append (start : Nat) (front back : List Lexeme) :
    openings start (front ++ back) =
      openings start front ++ openings (start + front.length) back := by
  simp [openings, List.zipIdx_append]

theorem openings_cons (start : Nat) (lexeme : Lexeme) (rest : List Lexeme) :
    openings start (lexeme :: rest) =
      (if lexeme.token = .openBracket then [start] else []) ++ openings (start + 1) rest := by
  simp only [openings, List.zipIdx_cons, List.filter_cons, decide_eq_true_eq]
  split <;> rfl

theorem sorted_openings (start : Nat) (lexemes : List Lexeme) :
    (openings start lexemes).Pairwise (· < ·) := by
  have listed : (openings start lexemes).Sublist ((lexemes.zipIdx start).map Prod.snd) :=
    List.filter_sublist.map Prod.snd
  rw [List.zipIdx_map_snd] at listed
  exact List.Pairwise.sublist listed List.pairwise_lt_range'

end Lexeme

mutual
theorem Primary.position_suffixes (start : Nat) : (primary : Primary) →
    (primary.suffixes start).map (·.position) = Lexeme.openings start primary.lexemes
  | .name _ _ => rfl
  | .parens opener body closer => by
      rw [Primary.suffixes, body.position_suffixes, Primary.lexemes, Lexeme.openings_cons,
        Lexeme.openings_append, Lexeme.openings_cons, Lexeme.openings_nil]
      simp

theorem Term.position_suffixesIn (owner : Term) (start : Nat) : (term : Term) →
    (owner.suffixesIn start term).map (·.position) = Lexeme.openings start term.lexemes
  | .bare head => head.position_suffixes start
  | .suffixed target opener content closer => by
      rw [Term.suffixesIn, List.map_append, List.map_cons, owner.position_suffixesIn start target,
        content.position_suffixes, Term.lexemes, Lexeme.openings_append, Lexeme.openings_cons,
        Lexeme.openings_append, Lexeme.openings_cons, Lexeme.openings_nil]
      simp [Suffix.position]

theorem Row.position_suffixes (start : Nat) : (row : Row) →
    (row.suffixes start).map (·.position) = Lexeme.openings start row.lexemes
  | .single first => first.position_suffixesIn start first
  | .plus init sign last => by
      rw [Row.suffixes, List.map_append, init.position_suffixes, last.position_suffixesIn,
        Row.lexemes, Lexeme.openings_append, Lexeme.openings_cons]
      simp
  | .beside init last => by
      rw [Row.suffixes, List.map_append, init.position_suffixes, last.position_suffixesIn,
        Row.lexemes, Lexeme.openings_append]

theorem Column.position_suffixes (start : Nat) : (column : Column) →
    (column.suffixes start).map (·.position) = Lexeme.openings start column.lexemes
  | .single first => first.position_suffixes start
  | .slash init sign last => by
      rw [Column.suffixes, List.map_append, init.position_suffixes, last.position_suffixes,
        Column.lexemes, Lexeme.openings_append, Lexeme.openings_cons]
      simp
end

theorem Column.sorted_suffixes (column : Column) :
    (column.suffixes 0).Pairwise (·.position < ·.position) := by
  have sorted := Lexeme.sorted_openings 0 column.lexemes
  rw [← column.position_suffixes] at sorted
  exact List.pairwise_map.mp sorted

/-! Where the terms of the brackets stand. -/

/-- A term that another one is, or begins with, followed by contents. -/
inductive Term.Begins (stem : Term) : Term → Prop
  | self : Begins stem stem
  | suffixed {target : Term} (opener : Span) (content : Column) (closer : Span) :
      Begins stem target → Begins stem (.suffixed target opener content closer)

theorem Term.Begins.target {stem target : Term} {opener closer : Span} {content : Column}
    (begins : (Term.suffixed stem opener content closer).Begins target) : stem.Begins target := by
  induction begins with
  | self => exact .suffixed opener content closer .self
  | suffixed opener content closer _ ih => exact .suffixed opener content closer ih

theorem Term.Begins.isPrefix {stem target : Term} (begins : stem.Begins target) :
    stem.lexemes <+: target.lexemes := by
  induction begins with
  | self => exact List.prefix_rfl
  | suffixed opener content closer _ ih => exact ih.trans (List.prefix_append _ _)

/-- The term of a bracket stands in lexemes that have `start` others before them, and the bracket
opens one of the contents of the term. -/
structure Suffix.Stands (start : Nat) (lexemes : List Lexeme) (suffix : Suffix) : Prop where
  place : ∃ before after, lexemes = before ++ suffix.owner.lexemes ++ after ∧
    suffix.start = start + before.length
  opens : ∃ opener content closer,
    (Term.suffixed suffix.target opener content closer).Begins suffix.owner

namespace Suffix.Stands

variable {start : Nat} {front lexemes back : List Lexeme} {suffix : Suffix}

theorem append (stands : suffix.Stands start lexemes) (back : List Lexeme) :
    suffix.Stands start (lexemes ++ back) where
  place := by
    obtain ⟨before, after, rfl, place⟩ := stands.place
    exact ⟨before, after ++ back, by simp, place⟩
  opens := stands.opens

theorem of_isPrefix (stands : suffix.Stands start lexemes) {whole : List Lexeme}
    (isPrefix : lexemes <+: whole) : suffix.Stands start whole := by
  obtain ⟨back, rfl⟩ := isPrefix
  exact stands.append back

theorem after (stands : suffix.Stands (start + front.length) lexemes) :
    suffix.Stands start (front ++ lexemes) where
  place := by
    obtain ⟨before, after, rfl, place⟩ := stands.place
    refine ⟨front ++ before, after, by simp, ?_⟩
    rw [place, List.length_append, Nat.add_assoc]
  opens := stands.opens

theorem cons {lexeme : Lexeme} (stands : suffix.Stands (start + 1) lexemes) :
    suffix.Stands start (lexeme :: lexemes) :=
  Suffix.Stands.after (show suffix.Stands (start + [lexeme].length) lexemes from stands)

end Suffix.Stands

mutual
theorem Primary.stands_of_mem_suffixes (start : Nat) : (primary : Primary) → {suffix : Suffix} →
    suffix ∈ primary.suffixes start → suffix.Stands start primary.lexemes
  | .name _ _, _, member => by cases member
  | .parens _ body _, _, member =>
      ((body.stands_of_mem_suffixes (start + 1) member).append _).cons

theorem Term.stands_of_mem_suffixesIn (owner : Term) (start : Nat) : (term : Term) →
    term.Begins owner → {suffix : Suffix} → suffix ∈ owner.suffixesIn start term →
    suffix.Stands start owner.lexemes
  | .bare head, begins, _, member =>
      (head.stands_of_mem_suffixes start member).of_isPrefix begins.isPrefix
  | .suffixed target opener content closer, begins, suffix, member => by
      rw [Term.suffixesIn, List.mem_append, List.mem_cons] at member
      rcases member with inTarget | rfl | inContent
      · exact owner.stands_of_mem_suffixesIn start target begins.target inTarget
      · exact ⟨⟨[], [], by simp, rfl⟩, opener, content, closer, begins⟩
      · have stands := content.stands_of_mem_suffixes _ inContent
        exact ((stands.append [⟨.closeBracket, closer⟩]).cons.after).of_isPrefix begins.isPrefix

theorem Row.stands_of_mem_suffixes (start : Nat) : (row : Row) → {suffix : Suffix} →
    suffix ∈ row.suffixes start → suffix.Stands start row.lexemes
  | .single first, _, member => first.stands_of_mem_suffixesIn start first .self member
  | .plus init _ last, _, member => by
      rw [Row.suffixes, List.mem_append] at member
      cases member with
      | inl before => exact (init.stands_of_mem_suffixes start before).append _
      | inr here => exact (last.stands_of_mem_suffixesIn _ last .self here).cons.after
  | .beside init last, _, member => by
      rw [Row.suffixes, List.mem_append] at member
      cases member with
      | inl before => exact (init.stands_of_mem_suffixes start before).append _
      | inr here => exact (last.stands_of_mem_suffixesIn _ last .self here).after

theorem Column.stands_of_mem_suffixes (start : Nat) : (column : Column) → {suffix : Suffix} →
    suffix ∈ column.suffixes start → suffix.Stands start column.lexemes
  | .single first, _, member => first.stands_of_mem_suffixes start member
  | .slash init _ last, _, member => by
      rw [Column.suffixes, List.mem_append] at member
      cases member with
      | inl before => exact (init.stands_of_mem_suffixes start before).append _
      | inr here => exact (last.stands_of_mem_suffixes _ here).cons.after
end

/-- A span goes from the first token of a term to the end of its last bracket. -/
def Term.Runs (term : Term) (span : Span) : Prop :=
  ∃ first inner closer, term.lexemes = first :: (inner ++ [⟨.closeBracket, closer⟩]) ∧
    span = ⟨first.span.start, closer.stop⟩

theorem Term.runs_suffixed_iff {target : Term} {opener closer : Span} {content : Column}
    {span : Span} : (Term.suffixed target opener content closer).Runs span ↔
      span = (Term.suffixed target opener content closer).span := by
  obtain ⟨first, rest, begins, start⟩ := target.exists_first
  have whole : (Term.suffixed target opener content closer).lexemes =
      first :: (rest ++ ⟨.openBracket, opener⟩ :: content.lexemes ++
        [⟨.closeBracket, closer⟩]) := by
    simp [Term.lexemes, begins]
  have place : (Term.suffixed target opener content closer).span =
      ⟨first.span.start, closer.stop⟩ := by
    rw [Term.span, Span.join, start]
  rw [place, Runs, whole]
  constructor
  · rintro ⟨other, inner, last, split, rfl⟩
    obtain ⟨rfl, later⟩ := List.cons.inj split
    obtain ⟨-, same⟩ := List.append_inj' later rfl
    cases same
    rfl
  · rintro rfl
    exact ⟨first, _, closer, rfl, rfl⟩

theorem Suffix.Stands.runs_iff {start : Nat} {lexemes : List Lexeme} {suffix : Suffix}
    (stands : suffix.Stands start lexemes) {span : Span} :
    suffix.owner.Runs span ↔ span = suffix.owner.span := by
  obtain ⟨opener, content, closer, begins⟩ := stands.opens
  generalize suffix.owner = owner at begins
  cases begins with
  | self => exact Term.runs_suffixed_iff
  | suffixed => exact Term.runs_suffixed_iff

/-! Giving meaning fails at the first illegal bracket. -/

namespace Suffix

/-- A result that tells whether some brackets are all legal, or else the term of the first that
is not. -/
inductive Judge (suffixes : List Suffix) : Except Span α → Prop
  | legal (value : α) : (∀ suffix ∈ suffixes, suffix.Legal) → Judge suffixes (.ok value)
  | illegal {front back : List Suffix} {suffix : Suffix} :
      suffixes = front ++ suffix :: back → (∀ other ∈ front, other.Legal) → ¬ suffix.Legal →
      Judge suffixes (.error suffix.owner.span)

namespace Judge

variable {left right : List Suffix} {result : Except Span α}

theorem bind {next : α → Except Span β} (judge : Judge left result)
    (later : ∀ value, result = .ok value → Judge right (next value)) :
    Judge (left ++ right) (result >>= next) := by
  cases judge with
  | legal value legalLeft =>
      have goesOn := later value rfl
      change Judge (left ++ right) (next value)
      generalize next value = last at goesOn
      cases goesOn with
      | legal last legalRight =>
          exact .legal last (List.forall_mem_append.mpr ⟨legalLeft, legalRight⟩)
      | @illegal front back suffix split before here =>
          have whole : left ++ right = (left ++ front) ++ suffix :: back := by
            rw [split, List.append_assoc]
          exact .illegal whole (List.forall_mem_append.mpr ⟨legalLeft, before⟩) here
  | @illegal front back suffix split before here =>
      have whole : left ++ right = front ++ suffix :: (back ++ right) := by
        rw [split, List.append_assoc, List.cons_append]
      exact .illegal whole before here

theorem map (judge : Judge left result) (change : α → β) : Judge left (change <$> result) := by
  cases judge with
  | legal value legal => exact .legal _ legal
  | illegal split before here => exact .illegal split before here

theorem cons {suffix : Suffix} (legal : suffix.Legal) (judge : Judge right result) :
    Judge (suffix :: right) result := by
  cases judge with
  | legal value later => exact .legal value (List.forall_mem_cons.mpr ⟨legal, later⟩)
  | @illegal front back other split before here =>
      have whole : suffix :: right = (suffix :: front) ++ other :: back := by
        rw [split, List.cons_append]
      exact .illegal whole (List.forall_mem_cons.mpr ⟨legal, before⟩) here

theorem head {suffix : Suffix} (illegal : ¬ suffix.Legal) :
    Judge (suffix :: right) (.error suffix.owner.span : Except Span α) :=
  .illegal (List.nil_append _).symm nofun illegal

end Judge

end Suffix

theorem Term.Denotes.unique {term : Term} {first second : Expr} (denotes : term.Denotes first)
    (other : term.Denotes second) : first = second := by
  have read := (term.denoteIn_eq_ok_iff term.span).mpr denotes
  rw [(term.denoteIn_eq_ok_iff term.span).mpr other] at read
  exact (Except.ok.inj read).symm

mutual
theorem Primary.judge_denote (start : Nat) : (primary : Primary) →
    Suffix.Judge (primary.suffixes start) primary.denote
  | .name text _ => .legal (Expr.entity text) (by simp [Primary.suffixes])
  | .parens _ body _ => (body.judge_denoteRows (start + 1)).map _

theorem Term.judge_denoteIn (owner : Term) (start : Nat) : (term : Term) →
    Suffix.Judge (owner.suffixesIn start term) (term.denoteIn owner.span)
  | .bare head => head.judge_denote start
  | .suffixed target _ content _ => by
      refine (owner.judge_denoteIn start target).bind fun value read => ?_
      have denotes := (target.denoteIn_eq_ok_iff owner.span).mp read
      cases value with
      | entity name =>
          refine .cons ⟨name, denotes⟩ ?_
          exact (content.judge_denoteRows _).map fun rows =>
            Expr.container name (Expr.join .column rows)
      | group direction children =>
          have illegal : ¬ Suffix.Legal ⟨start, target, owner⟩ := by
            rintro ⟨name, plain⟩
            cases plain.unique denotes
          exact .head illegal
      | container name inside =>
          have illegal : ¬ Suffix.Legal ⟨start, target, owner⟩ := by
            rintro ⟨name, plain⟩
            cases plain.unique denotes
          exact .head illegal

theorem Row.judge_denoteTerms (start : Nat) : (row : Row) →
    Suffix.Judge (row.suffixes start) row.denoteTerms
  | .single first => (first.judge_denoteIn start first).map fun item => [item]
  | .plus init _ last => (init.judge_denoteTerms start).bind fun items _ =>
      (last.judge_denoteIn _ last).map fun item => items ++ [item]
  | .beside init last => (init.judge_denoteTerms start).bind fun items _ =>
      (last.judge_denoteIn _ last).map fun item => items ++ [item]

theorem Column.judge_denoteRows (start : Nat) : (column : Column) →
    Suffix.Judge (column.suffixes start) column.denoteRows
  | .single first => (first.judge_denoteTerms start).map fun items => [Expr.join .row items]
  | .slash init _ last => (init.judge_denoteRows start).bind fun rows _ =>
      (last.judge_denoteTerms _).map fun items => rows ++ [Expr.join .row items]
end

namespace Column

/-- A bracket with an illegal target that has none such to its left. -/
structure Blames (column : Column) (suffix : Suffix) : Prop where
  member : suffix ∈ column.suffixes 0
  illegal : ¬ suffix.Legal
  leftmost : ∀ other ∈ column.suffixes 0, ¬ other.Legal → suffix.position ≤ other.position

variable {column : Column} {suffix : Suffix}

theorem blames_iff : column.Blames suffix ↔ ∃ front back,
    column.suffixes 0 = front ++ suffix :: back ∧ (∀ other ∈ front, other.Legal) ∧
      ¬ suffix.Legal := by
  have sorted := column.sorted_suffixes
  constructor
  · intro blames
    obtain ⟨front, back, split⟩ := List.append_of_mem blames.member
    refine ⟨front, back, split, fun other member => ?_, blames.illegal⟩
    by_contra illegal
    have least := blames.leftmost other (by simp [split, member]) illegal
    rw [split] at sorted
    have before := (List.pairwise_append.mp sorted).2.2 other member suffix List.mem_cons_self
    omega
  · rintro ⟨front, back, split, legal, illegal⟩
    refine ⟨by simp [split], illegal, fun other member otherIllegal => ?_⟩
    rw [split] at member sorted
    rcases List.mem_append.mp member with before | later
    · exact absurd (legal other before) otherIllegal
    · cases List.mem_cons.mp later with
      | inl same => rw [same]
      | inr after =>
          have following := (List.pairwise_append.mp sorted).2.1
          exact (List.rel_of_pairwise_cons following after).le

theorem Blames.unique {other : Suffix} (blames : column.Blames suffix)
    (blamesOther : column.Blames other) : suffix = other := by
  have distinct : ((column.suffixes 0).map (·.position)).Nodup :=
    (List.pairwise_map.mpr column.sorted_suffixes).imp Nat.ne_of_lt
  have same : suffix.position = other.position := Nat.le_antisymm
    (blames.leftmost other blamesOther.member blamesOther.illegal)
    (blamesOther.leftmost suffix blames.member blames.illegal)
  exact List.inj_on_of_nodup_map distinct blames.member blamesOther.member same

theorem judge_denote (column : Column) : Suffix.Judge (column.suffixes 0) column.denote :=
  (column.judge_denoteRows 0).map (Expr.join .column)

theorem exists_blames_iff : (∃ suffix, column.Blames suffix) ↔
    ∃ suffix ∈ column.suffixes 0, ¬ suffix.Legal := by
  constructor
  · rintro ⟨suffix, blames⟩
    exact ⟨suffix, blames.member, blames.illegal⟩
  · rintro ⟨suffix, member, illegal⟩
    have judge := column.judge_denote
    generalize column.denote = result at judge
    cases judge with
    | legal value legal => exact absurd (legal suffix member) illegal
    | @illegal front back first split before here =>
        exact ⟨first, blames_iff.mpr ⟨front, back, split, before, here⟩⟩

theorem Blames.runs_iff (blames : column.Blames suffix) {span : Span} :
    suffix.owner.Runs span ↔ span = suffix.owner.span :=
  (column.stands_of_mem_suffixes 0 blames.member).runs_iff

theorem denote_eq_error_iff {span : Span} : column.denote = .error span ↔
    ∃ suffix, column.Blames suffix ∧ suffix.owner.Runs span := by
  have judge := column.judge_denote
  generalize column.denote = result at judge
  cases judge with
  | legal value legal =>
      constructor
      · intro failed
        cases failed
      · rintro ⟨suffix, blames, -⟩
        exact absurd (legal suffix blames.member) blames.illegal
  | @illegal front back first split before here =>
      have blamesFirst : column.Blames first := blames_iff.mpr ⟨front, back, split, before, here⟩
      constructor
      · intro failed
        exact ⟨first, blamesFirst, blamesFirst.runs_iff.mpr (Except.error.inj failed).symm⟩
      · rintro ⟨suffix, blames, covered⟩
        rw [blames.runs_iff.mp covered, blamesFirst.unique blames]

end Column

theorem Expr.ofLexemes_eq_invalidContainer_iff {size : Nat} {lexemes : List Lexeme} {span : Span} :
    Expr.ofLexemes size lexemes = .error (.invalidContainer span) ↔
      ∃ column : Column, column.Derives lexemes ∧ column.denote = .error span := by
  constructor
  · intro failed
    by_cases sentence : Sentence lexemes
    · obtain ⟨column, derives⟩ := sentence
      refine ⟨column, derives, ?_⟩
      rw [Expr.ofLexemes, Column.ofLexemes_eq_ok_iff.mpr derives] at failed
      obtain ⟨other, undenoted, same⟩ := mapError_eq_error_iff.mp failed
      rwa [ParseError.invalidContainer.inj same] at undenoted
    · -- an error of syntax is of another kind
      obtain ⟨error, rejected⟩ := exists_rejected size sentence
      have same := rejected.reads
      rw [failed] at same
      cases rejected <;> cases same
  · rintro ⟨column, derives, undenoted⟩
    rw [Expr.ofLexemes, Column.ofLexemes_eq_ok_iff.mpr derives]
    exact mapError_eq_error_iff.mpr ⟨span, undenoted, rfl⟩

/-- Lexemes are rejected for the sake of a content exactly if they have a derivation in which some
bracket has an illegal target, and then the error has the place of the whole term to which the
leftmost of these belongs. -/
theorem Expr.ofLexemes_blames_leftmost (size : Nat) (lexemes : List Lexeme) :
    (∀ span, Expr.ofLexemes size lexemes = .error (.invalidContainer span) ↔
      ∃ column : Column, column.Derives lexemes ∧
        ∃ suffix, column.Blames suffix ∧ suffix.owner.Runs span) ∧
    ((∃ span, Expr.ofLexemes size lexemes = .error (.invalidContainer span)) ↔
      ∃ column : Column, column.Derives lexemes ∧ ∃ suffix ∈ column.suffixes 0, ¬ suffix.Legal) ∧
    ∀ column : Column, column.Derives lexemes →
      (column.suffixes 0).map (·.position) = Lexeme.openings 0 lexemes ∧
        ∀ suffix ∈ column.suffixes 0, suffix.Stands 0 lexemes := by
  have blames : ∀ span, Expr.ofLexemes size lexemes = .error (.invalidContainer span) ↔
      ∃ column : Column, column.Derives lexemes ∧
        ∃ suffix, column.Blames suffix ∧ suffix.owner.Runs span := by
    intro span
    simp only [ofLexemes_eq_invalidContainer_iff, Column.denote_eq_error_iff]
  refine ⟨blames, ?_, ?_⟩
  · simp only [blames, ← Column.exists_blames_iff]
    constructor
    · rintro ⟨span, column, derives, suffix, blamed, -⟩
      exact ⟨column, derives, suffix, blamed⟩
    · rintro ⟨column, derives, suffix, blamed⟩
      exact ⟨_, column, derives, suffix, blamed, blamed.runs_iff.mpr rfl⟩
  · intro column derives
    rw [← derives.spells]
    exact ⟨column.position_suffixes 0, fun suffix => column.stands_of_mem_suffixes 0⟩

end Wireframe
