import Wireframe.Proofs.Component.Script
import Wireframe.Proofs.Style.Dictionary

/-! Texts that end the style element in which they stand, and which declarations of the built-in
dictionary do: a value has an end tag where its token has one, but for what comes after a class. -/

namespace Wireframe

open Text

/-- A text that ends the style element it stands in, in capitals or not. -/
def ClosesStyle (text : List Char) : Prop :=
  "</style".toList <:+: text.map Char.toLower

instance (text : List Char) : Decidable (ClosesStyle text) :=
  inferInstanceAs (Decidable (_ <:+: _))

/-! An end tag does not reach over characters that it does not have. -/

section Closing

variable {text front rest : List Char} {c : Char}

theorem isPrefix_of_append_cons {needle front rest : List Char} {c : Char} (absent : c ∉ needle)
    (begins : needle <+: front ++ c :: rest) : needle <+: front := by
  obtain within | ⟨beyond, rfl⟩ :=
    List.prefix_or_prefix_of_prefix begins (List.prefix_append front (c :: rest))
  · exact within
  · rw [List.prefix_append_right_inj] at begins
    cases beyond with
    | nil => rw [List.append_nil]
    | cons first others =>
        obtain ⟨rfl, -⟩ := List.cons_prefix_cons.mp begins
        simp at absent

theorem infix_append_cons_iff {needle : List Char} (absent : c ∉ needle) :
    needle <:+: front ++ c :: rest ↔ needle <:+: front ∨ needle <:+: rest := by
  constructor
  · intro within
    induction front with
    | nil =>
        obtain begins | later := List.infix_cons_iff.mp within
        · have within : needle <+: [] := isPrefix_of_append_cons absent begins
          exact .inl within.isInfix
        · exact .inr later
    | cons first others ih =>
        obtain begins | later := List.infix_cons_iff.mp within
        · exact .inl (isPrefix_of_append_cons absent begins).isInfix
        · exact (ih later).imp_left List.infix_cons
  · rintro (within | within)
    · exact within.trans (List.prefix_append front (c :: rest)).isInfix
    · exact within.trans ((List.suffix_cons c rest).trans (List.suffix_append front _)).isInfix

theorem closesStyle_append_cons (outside : c.toLower ∉ "</style".toList) :
    ClosesStyle (front ++ c :: rest) ↔ ClosesStyle front ∨ ClosesStyle rest := by
  rw [ClosesStyle, List.map_append, List.map_cons, infix_append_cons_iff outside]
  rfl

theorem not_closesStyle_nil : ¬ ClosesStyle [] := by decide

/-- A sign keeps its case. -/
theorem toLower_eq_iff {sign : Char} (plain : sign.isAlpha = false) :
    c.toLower = sign ↔ c = sign := by
  by_cases upper : c.isUpper
  · have letter : c.isAlpha = true := by simp [Char.isAlpha, upper]
    constructor
    · rintro rfl
      rw [Char.isAlpha_toLower_eq_isAlpha, letter] at plain
      cases plain
    · rintro rfl
      rw [letter] at plain
      cases plain
  · rw [Char.toLower_eq_of_not_isUpper upper]

theorem mem_of_closesStyle (closes : ClosesStyle text) {sign : Char}
    (inside : sign ∈ "</style".toList) (plain : sign.isAlpha = false) : sign ∈ text := by
  obtain ⟨other, member, same⟩ := List.mem_map.mp (closes.subset inside)
  rw [toLower_eq_iff plain] at same
  exact same ▸ member

theorem not_closesStyle_of_notMem (absent : '<' ∉ text) : ¬ ClosesStyle text := fun closes =>
  absent (mem_of_closesStyle closes (by decide) rfl)

theorem toLower_notMem_of_isBlank (blank : isBlank c) : c.toLower ∉ "</style".toList := by
  have notUpper : ¬ c.isUpper := by
    intro upper
    have letter := Name.isBlank_of_isHead (Bool.or_eq_true_iff.mpr (.inl upper))
    rw [blank] at letter
    cases letter
  have none : ∀ sign ∈ "</style".toList, isBlank sign = false := by simp [isBlank]
  rw [Char.toLower_eq_of_not_isUpper notUpper]
  intro member
  rw [none c member] at blank
  cases blank

theorem closesStyle_blanks_append {blanks : List Char} (blank : ∀ c ∈ blanks, isBlank c)
    (text : List Char) : ClosesStyle (blanks ++ text) ↔ ClosesStyle text := by
  induction blanks with
  | nil => rfl
  | cons first others ih =>
      have outside := toLower_notMem_of_isBlank (blank first List.mem_cons_self)
      have later := ih fun c member => blank c (List.mem_cons_of_mem first member)
      rw [List.cons_append, ← List.nil_append (first :: _), closesStyle_append_cons outside, later,
        or_iff_right not_closesStyle_nil]

theorem closesStyle_append_blanks {blanks : List Char} (blank : ∀ c ∈ blanks, isBlank c)
    (text : List Char) : ClosesStyle (text ++ blanks) ↔ ClosesStyle text := by
  cases blanks with
  | nil => rw [List.append_nil]
  | cons first others =>
      have outside := toLower_notMem_of_isBlank (blank first List.mem_cons_self)
      have empty : ¬ ClosesStyle others := by
        have later := fun c member => blank c (List.mem_cons_of_mem first member)
        have alone := closesStyle_blanks_append later []
        rw [List.append_nil] at alone
        exact alone.not.mpr not_closesStyle_nil
      rw [closesStyle_append_cons outside, or_iff_left empty]

theorem closesStyle_trim (text : List Char) : ClosesStyle (trim text) ↔ ClosesStyle text := by
  have start : text.takeWhile isBlank ++ trimStart text = text :=
    List.takeWhile_append_dropWhile
  have last : trim text ++ (trimStart text).rtakeWhile isBlank = trimStart text :=
    List.rdropWhile_append_rtakeWhile
  have blanksBefore : ∀ c ∈ text.takeWhile isBlank, isBlank c := fun _ member =>
    List.mem_takeWhile_imp member
  have blanksAfter : ∀ c ∈ (trimStart text).rtakeWhile isBlank, isBlank c := fun _ member =>
    List.mem_rtakeWhile_imp member
  have ahead := closesStyle_blanks_append blanksBefore (trimStart text)
  have behind := closesStyle_append_blanks blanksAfter (trim text)
  rw [start] at ahead
  rw [last] at behind
  exact behind.symm.trans ahead.symm

theorem closesStyle_iff_splitOnPPrepend {separates : Char → Bool}
    (outside : ∀ c, separates c → c.toLower ∉ "</style".toList) (text acc : List Char) :
    ClosesStyle (acc.reverse ++ text) ↔
      ∃ piece ∈ List.splitOnPPrepend separates text acc, ClosesStyle piece := by
  induction text generalizing acc with
  | nil => simp
  | cons c rest ih =>
      by_cases separator : separates c
      · have later := ih []
        rw [List.reverse_nil, List.nil_append, List.splitOnPPrepend_nil_right] at later
        rw [closesStyle_append_cons (outside c separator),
          List.splitOnPPrepend_cons_pos separator, List.exists_mem_cons_iff, later]
      · have later := ih (c :: acc)
        rw [List.reverse_cons, List.append_assoc] at later
        rw [List.splitOnPPrepend_cons_neg (Bool.not_eq_true _ ▸ separator), ← later]
        rfl

theorem closesStyle_iff_splitOnP {separates : Char → Bool}
    (outside : ∀ c, separates c → c.toLower ∉ "</style".toList) :
    ClosesStyle text ↔ ∃ piece ∈ text.splitOnP separates, ClosesStyle piece := by
  have pieces := closesStyle_iff_splitOnPPrepend outside text []
  rwa [List.reverse_nil, List.nil_append, List.splitOnPPrepend_nil_right] at pieces

theorem closesStyle_iff_words : ClosesStyle text ↔ ∃ word ∈ words text, ClosesStyle word := by
  rw [closesStyle_iff_splitOnP fun _ => toLower_notMem_of_isBlank, words]
  simp only [List.mem_filter, decide_eq_true_eq]
  constructor
  · rintro ⟨piece, member, closes⟩
    refine ⟨piece, ⟨member, ?_⟩, closes⟩
    rintro rfl
    exact not_closesStyle_nil closes
  · rintro ⟨piece, ⟨member, -⟩, closes⟩
    exact ⟨piece, member, closes⟩

theorem closesStyle_intercalate (pieces : List (List Char)) :
    ClosesStyle ([' '].intercalate pieces) ↔ ∃ piece ∈ pieces, ClosesStyle piece := by
  induction pieces with
  | nil => simp [not_closesStyle_nil]
  | cons first others ih =>
      cases others with
      | nil => simp
      | cons next last =>
          have outside : ' '.toLower ∉ "</style".toList := by decide
          rw [List.intercalate_cons_cons, List.append_assoc, List.singleton_append,
            closesStyle_append_cons outside, List.exists_mem_cons_iff, ih]

end Closing

/-! Which declarations of the built-in dictionary end the style element. -/

namespace Shorthand

variable {token : String} {text : List Char} {declaration : Declaration}

theorem isLine_value (resolved : resolve token = some declaration) :
    Component.IsLine declaration.value :=
  (isValue_value resolved).single

/-- A token that begins with a word that is a class on its own. -/
def NamesClass (token : String) : Prop :=
  ∃ word ∈ classes, (words (trim token.toList)).head? = some word

instance (token : String) : Decidable (NamesClass token) :=
  inferInstanceAs (Decidable (∃ word ∈ classes, _))

theorem closesStyle_pixels : ClosesStyle (pixels text) ↔ ClosesStyle text := by
  unfold pixels
  split
  next numeral =>
    have absent : '<' ∉ text := notMem_of_isNumeral numeral rfl (by decide)
    have padded : '<' ∉ text ++ "px".toList := List.not_mem_append absent (by decide)
    exact iff_of_false (not_closesStyle_of_notMem padded) (not_closesStyle_of_notMem absent)
  next => rfl

/-- A value ends the style element if the token does, but for what comes after a class. -/
theorem closesStyle_value_iff (resolved : resolve token = some declaration) :
    ClosesStyle declaration.value.toList ↔ ClosesStyle token.toList ∧ ¬ NamesClass token := by
  obtain ⟨head, tail, split, rule⟩ := exists_rule resolved
  have names : NamesClass token ↔ head ∈ classes := by
    rw [NamesClass, split, List.head?_cons]
    simp
  have joined : ClosesStyle ([' '].intercalate tail) ↔ ∃ word ∈ tail, ClosesStyle word :=
    closesStyle_intercalate tail
  have spread : ClosesStyle (trim token.toList) ↔
      ClosesStyle head ∨ ∃ word ∈ tail, ClosesStyle word := by
    rw [closesStyle_iff_words, split, List.exists_mem_cons_iff]
  rw [← closesStyle_trim token.toList, names]
  cases rule with
  | background key =>
      have outside : head ∉ classes := key ▸ by decide
      have plain : ¬ ClosesStyle head := key ▸ by decide
      rw [String.toList_ofList, joined, spread, or_iff_right plain, and_iff_left outside]
  | radius key =>
      have outside : head ∉ classes := key ▸ by decide
      have plain : ¬ ClosesStyle head := key ▸ by decide
      rw [String.toList_ofList, closesStyle_pixels, joined, spread, or_iff_right plain,
        and_iff_left outside]
  | named isClass =>
      have plain : ∀ word ∈ classes, ¬ ClosesStyle word := by decide
      rw [String.toList_ofList]
      exact iff_of_false (plain head isClass) fun both => both.2 isClass
  | number unnamed numeral =>
      have unit : ClosesStyle (trim token.toList ++ '%' :: []) ↔
          ClosesStyle (trim token.toList) ∨ ClosesStyle [] := closesStyle_append_cons (by decide)
      rw [String.toList_ofList, and_iff_left unnamed, unit, or_iff_left not_closesStyle_nil]
  | percentage unnamed percentage =>
      rw [String.toList_ofList, and_iff_left unnamed]
  | property unnamed found =>
      obtain ⟨blanks, property⟩ := property?_eq_some_iff.mp found
      obtain ⟨c, others, rfl⟩ := List.exists_cons_of_ne_nil property.separated
      obtain ⟨blank, blanksAfter⟩ := List.forall_mem_cons.mp property.blank
      have plain : ¬ ClosesStyle declaration.key.toList :=
        not_closesStyle_of_notMem (notMem_key resolved rfl)
      rw [and_iff_left unnamed, property.whole, List.append_assoc, List.cons_append,
        closesStyle_append_cons (toLower_notMem_of_isBlank blank), or_iff_right plain,
        closesStyle_blanks_append blanksAfter]

end Shorthand

end Wireframe
