import Wireframe.Html
import Wireframe.Proofs.Text.Replace
import Mathlib.Data.List.Basic

/-! Escaped text. It has none of the characters that markup is made of, its ampersands begin
entities, and reading the entities gives the text back. Replacing one kind of character after
the other writes the same, with the ampersand first. -/

namespace Wireframe

namespace Html

/-- Reads entities as the characters that they stand for, and everything else as it is. -/
def unescapeChars : List Char → List Char
  | '&' :: 'a' :: 'm' :: 'p' :: ';' :: rest => '&' :: unescapeChars rest
  | '&' :: 'l' :: 't' :: ';' :: rest => '<' :: unescapeChars rest
  | '&' :: 'g' :: 't' :: ';' :: rest => '>' :: unescapeChars rest
  | '&' :: 'q' :: 'u' :: 'o' :: 't' :: ';' :: rest => '"' :: unescapeChars rest
  | '&' :: '#' :: '3' :: '9' :: ';' :: rest => '\'' :: unescapeChars rest
  | c :: rest => c :: unescapeChars rest
  | [] => []

def unescape (text : String) : String :=
  String.ofList (unescapeChars text.toList)

theorem unescapeChars_cons {c : Char} (different : c ≠ '&') (rest : List Char) :
    unescapeChars (c :: rest) = c :: unescapeChars rest := by
  simp [unescapeChars, different]

theorem unescapeChars_escapeChar (c : Char) (rest : List Char) :
    unescapeChars (escapeChar c ++ rest) = c :: unescapeChars rest := by
  unfold escapeChar
  split
  case h_1 | h_2 | h_3 | h_4 | h_5 => rfl
  case h_6 notAmpersand _ _ _ _ => exact unescapeChars_cons notAmpersand rest

theorem unescapeChars_flatMap (chars : List Char) :
    unescapeChars (chars.flatMap escapeChar) = chars := by
  induction chars with
  | nil => rfl
  | cons c chars ih => rw [List.flatMap_cons, unescapeChars_escapeChar, ih]

theorem unescape_escape (text : String) : unescape (escape text) = text := by
  rw [unescape, escape, String.toList_ofList, unescapeChars_flatMap, String.ofList_toList]

/-- The characters that begin and end tags and the values in them. -/
def isMarkup (c : Char) : Bool :=
  c == '<' || c == '>' || c == '"' || c == '\''

theorem isMarkup_escapeChar (c : Char) : ∀ written ∈ escapeChar c, isMarkup written = false := by
  unfold escapeChar
  split
  case h_1 | h_2 | h_3 | h_4 | h_5 => simp [isMarkup]
  case h_6 => simp_all [isMarkup]

theorem isMarkup_escape (text : String) : ∀ c ∈ (escape text).toList, isMarkup c = false := by
  intro c member
  rw [escape, String.toList_ofList, List.mem_flatMap] at member
  obtain ⟨original, -, written⟩ := member
  exact isMarkup_escapeChar original c written

theorem escape_append (first second : String) :
    escape (first ++ second) = escape first ++ escape second := by
  rw [escape, escape, escape, String.toList_append, List.flatMap_append, String.ofList_append]

theorem escape_eq_self {text : String} (plain : ∀ c ∈ text.toList, c ≠ '&' ∧ isMarkup c = false) :
    escape text = text := by
  have same : ∀ c ∈ text.toList, escapeChar c = [c] := by
    intro c member
    obtain ⟨notAmpersand, notMarkup⟩ := plain c member
    unfold escapeChar
    split
    case h_1 => exact absurd rfl notAmpersand
    case h_2 | h_3 | h_4 | h_5 => exact absurd notMarkup (by decide)
    case h_6 => rfl
  rw [escape, Text.flatMap_eq_self same, String.ofList_toList]

theorem escape_toString (number : Nat) : escape (toString number) = toString number := by
  refine escape_eq_self fun c member => ?_
  have written : c ∈ Nat.toDigits 10 number := by simpa using member
  have digit := Nat.isDigit_of_mem_toDigits (by decide) (by decide) written
  have notMark : ∀ mark, mark.isDigit = false → c ≠ mark := by
    rintro mark notDigit rfl
    rw [notDigit] at digit
    cases digit
  simp [isMarkup, notMark]

/-! The five replacements as a table. -/

def entities : List (Char × String) :=
  [('&', "&amp;"), ('<', "&lt;"), ('>', "&gt;"), ('"', "&quot;"), ('\'', "&#39;")]

/-- Every entity begins with an ampersand, so it has to be replaced before any entity is there. -/
theorem settled_entities : Text.Settled entities := by decide

example : ¬ Text.Settled entities.reverse := by decide

theorem passed_entities (c : Char) : Text.passed entities c = escapeChar c := by
  unfold escapeChar
  split
  case h_1 | h_2 | h_3 | h_4 | h_5 => rfl
  case h_6 notAmpersand notLess notGreater notQuote notApostrophe =>
      apply Text.passed_eq_self
      simp only [entities, List.forall_mem_cons]
      exact ⟨Ne.symm notAmpersand, Ne.symm notLess, Ne.symm notGreater, Ne.symm notQuote,
        Ne.symm notApostrophe, List.forall_mem_nil _⟩

theorem replaceInTurn_entities (text : String) :
    Text.replaceInTurn entities text = escape text := by
  apply String.toList_injective
  rw [Text.toList_replaceInTurn settled_entities, escape, String.toList_ofList,
    List.flatMap_congr fun c _ => passed_entities c]

theorem exists_entity_or_eq_self (c : Char) :
    (∃ entry ∈ entities, escapeChar c = entry.2.toList) ∨ c ≠ '&' ∧ escapeChar c = [c] := by
  unfold escapeChar
  split
  case h_1 | h_2 | h_3 | h_4 | h_5 => exact .inl (by simp [entities])
  case h_6 notAmpersand _ _ _ _ => exact .inr ⟨notAmpersand, rfl⟩

theorem exists_tail_of_mem_entities : ∀ entry ∈ entities,
    ∃ tail, '&' ∉ tail ∧ entry.2.toList = '&' :: tail := by
  have begins : ∀ entry ∈ entities,
      '&' ∉ entry.2.toList.tail ∧ entry.2.toList = '&' :: entry.2.toList.tail := by decide
  exact fun entry listed => ⟨entry.2.toList.tail, begins entry listed⟩

theorem isSuffix_of_notMem {mark : Char} {front text after : List Char} (absent : mark ∉ front)
    (ends : mark :: after <:+ front ++ text) : mark :: after <:+ text := by
  induction front with
  | nil => exact ends
  | cons c front ih =>
      rw [List.mem_cons, not_or] at absent
      rw [List.cons_append, List.suffix_cons_iff] at ends
      cases ends with
      | inl whole => exact absurd (List.cons.inj whole).1 absent.1
      | inr later => exact ih absent.2 later

theorem exists_entity_of_ampersand {chars after : List Char}
    (ends : '&' :: after <:+ chars.flatMap escapeChar) :
    ∃ entry ∈ entities, entry.2.toList <+: '&' :: after := by
  induction chars with
  | nil => cases List.suffix_nil.mp ends
  | cons c chars ih =>
      rw [List.flatMap_cons] at ends
      cases exists_entity_or_eq_self c with
      | inl put =>
          obtain ⟨entry, listed, put⟩ := put
          obtain ⟨tail, apart, begins⟩ := exists_tail_of_mem_entities entry listed
          rw [put, begins, List.cons_append, List.suffix_cons_iff] at ends
          cases ends with
          | inl whole =>
              refine ⟨entry, listed, ?_⟩
              rw [whole, begins, ← List.cons_append]
              exact List.prefix_append _ _
          | inr later => exact ih (isSuffix_of_notMem apart later)
      | inr kept =>
          obtain ⟨notAmpersand, kept⟩ := kept
          have apart : '&' ∉ [c] := by simpa using notAmpersand.symm
          rw [kept] at ends
          exact ih (isSuffix_of_notMem apart ends)

/-- Escaping is five replacements, made one after the other or in one pass. What it writes is
plain, every ampersand in it begins an entity, and it is read back, so no two texts are written
alike, whether or not there are entities in them already. -/
theorem escape_reversible (text : String) :
    ((((text.replace '&' "&amp;").replace '<' "&lt;").replace '>' "&gt;").replace '"'
        "&quot;").replace '\'' "&#39;" = escape text ∧
      (∀ c, isMarkup c → c ∉ (escape text).toList) ∧
      (∀ after, '&' :: after <:+ (escape text).toList →
        ∃ entry ∈ entities, entry.2.toList <+: '&' :: after) ∧
      (∀ more, escape (text ++ more) = escape text ++ escape more) ∧
      unescape (escape text) = text ∧
      ∀ other, escape other = escape text ↔ other = text := by
  refine ⟨replaceInTurn_entities text, ?_, ?_, escape_append text, unescape_escape text, ?_⟩
  · intro c markup member
    rw [isMarkup_escape text c member] at markup
    cases markup
  · intro after ends
    rw [escape, String.toList_ofList] at ends
    exact exists_entity_of_ampersand ends
  · intro other
    refine ⟨?_, congrArg escape⟩
    intro same
    calc other
      _ = unescape (escape other) := (unescape_escape other).symm
      _ = unescape (escape text) := by rw [same]
      _ = text := unescape_escape text

/-- A text with an entity in it is escaped like any other. -/
theorem escape_reversible_entity :
    let text := "<&lt;"
    let after := "amp;lt;".toList
    escape text = "&lt;&amp;lt;" ∧ isMarkup '<' ∧ '<' ∉ (escape text).toList ∧
      '&' :: after <:+ (escape text).toList ∧
      (∃ entry ∈ entities, entry.2.toList <+: '&' :: after) ∧ unescape (escape text) = text := by
  intro text after
  obtain ⟨-, plain, begins, -, reads, -⟩ := escape_reversible text
  have written : escape text = "&lt;&amp;lt;" := by decide
  have ends : '&' :: after <:+ (escape text).toList := by
    rw [written]
    decide
  exact ⟨written, rfl, plain '<' rfl, ends, begins after ends, reads⟩

end Html

end Wireframe
