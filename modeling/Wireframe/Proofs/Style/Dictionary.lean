import Wireframe.Proofs.Document.Anchor
import Wireframe.Style.Shorthand

/-! What the built-in dictionary makes of a token: the rules that give it a meaning, and the
longhand of that meaning, a property with its value, which no other rule takes. -/

namespace Wireframe

open Text

namespace Text

/-- A text with no blank at either end. -/
structure Unpadded (text : List Char) : Prop where
  first : ∀ c, text.head? = some c → isBlank c = false
  last : ∀ c, text.getLast? = some c → isBlank c = false

section Unpadded

variable {front back text : List Char}

theorem trim_eq_self_iff : trim text = text ↔ Unpadded text := by
  constructor
  · intro trimmed
    constructor
    case first =>
      intro c begins
      obtain ⟨rest, rfl⟩ := List.head?_eq_some_iff.mp begins
      exact isBlank_head_trim trimmed
    case last =>
      intro c ends
      obtain ⟨init, rfl⟩ := List.getLast?_eq_some_iff.mp ends
      have kept : trimEnd (init ++ [c]) = init ++ [c] := by
        rw [← trimmed]
        exact trimEnd_trim (init ++ [c])
      simpa using List.rdropWhile_eq_self_iff.mp kept (by simp)
  · rintro ⟨first, last⟩
    have begins : trimStart text = text := by
      cases text with
      | nil => rfl
      | cons c rest => exact List.dropWhile_cons_of_neg (by simp [first c rfl])
    have ends : trimEnd text = text := by
      apply List.rdropWhile_eq_self_iff.mpr
      intro nonempty
      simp [last _ (List.getLast?_eq_some_getLast nonempty)]
    rw [trim, begins, ends]

section Around

variable {lead trail : List Char} (blankLead : ∀ c ∈ lead, isBlank c)
  (blankTrail : ∀ c ∈ trail, isBlank c) (unpadded : Unpadded text)

include blankLead unpadded

include blankTrail in
theorem trim_around : trim (lead ++ text ++ trail) = text := by
  rw [trim_append blankTrail, trim_blanks_append blankLead, trim_eq_self_iff.mpr unpadded]

theorem takeWhile_around (nonempty : text ≠ []) :
    (lead ++ text ++ trail).takeWhile isBlank = lead := by
  rw [List.append_assoc]
  refine (span_append blankLead ?_).1
  rw [List.head?_append_of_ne_nil _ nonempty]
  exact unpadded.first

end Around

theorem unpadded_of_forall (solid : ∀ c ∈ text, isBlank c = false) : Unpadded text where
  first c begins := solid c (List.mem_of_head? begins)
  last c ends := solid c (List.mem_of_getLast? ends)

theorem Unpadded.append (starts : Unpadded front) (middle : List Char) (ends : Unpadded back)
    (frontNonempty : front ≠ []) (backNonempty : back ≠ []) :
    Unpadded (front ++ middle ++ back) where
  first c begins := by
    obtain ⟨head, rest, rfl⟩ := List.exists_cons_of_ne_nil frontNonempty
    exact starts.first c begins
  last c final := by
    rw [List.getLast?_append_of_ne_nil _ backNonempty] at final
    exact ends.last c final

theorem unpadded_intercalate {pieces : List (List Char)}
    (each : ∀ piece ∈ pieces, piece ≠ [] ∧ Unpadded piece) :
    Unpadded ([' '].intercalate pieces) := by
  induction pieces with
  | nil => exact unpadded_of_forall nofun
  | cons first others ih =>
      obtain ⟨⟨nonempty, unpadded⟩, later⟩ := List.forall_mem_cons.mp each
      cases others with
      | nil => simpa using unpadded
      | cons next last =>
          have filled : [' '].intercalate (next :: last) ≠ [] := by
            cases last <;> simp [List.intercalate_cons_cons, (later next List.mem_cons_self).1]
          rw [List.intercalate_cons_cons]
          exact unpadded.append [' '] (ih later) nonempty filled

/-- A text with no blank at its end. -/
def SolidEnd (text : List Char) : Prop :=
  ∀ c, text.getLast? = some c → isBlank c = false

theorem solidEnd_append_cons_iff {c : Char} (solid : isBlank c = false) :
    SolidEnd (front ++ c :: back) ↔ SolidEnd back := by
  cases back with
  | nil => simp [SolidEnd, solid]
  | cons next rest =>
      rw [SolidEnd, SolidEnd, List.getLast?_append_of_ne_nil _ (List.cons_ne_nil _ _),
        List.getLast?_cons_cons]

theorem notMem_intercalate_iff {separator sign : Char} (distinct : sign ≠ separator)
    {pieces : List (List Char)} :
    sign ∉ [separator].intercalate pieces ↔ ∀ piece ∈ pieces, sign ∉ piece := by
  induction pieces with
  | nil => simp
  | cons first others ih =>
      cases others with
      | nil => simp
      | cons next last =>
          rw [List.intercalate_cons_cons, List.mem_append, List.mem_append, List.mem_singleton,
            not_or, not_or, ih, and_assoc, and_iff_right distinct]
          exact (List.forall_mem_cons (p := (sign ∉ ·))).symm

end Unpadded

/-! The words of a text. -/

section Words

variable {text word blanks : List Char} {c : Char}

theorem mem_of_mem_splitOnP {acc piece : List Char}
    (member : piece ∈ List.splitOnPPrepend isBlank text acc) :
    ∀ c ∈ piece, c ∈ acc ∨ (c ∈ text ∧ isBlank c = false) := by
  induction text generalizing acc with
  | nil =>
      obtain rfl := List.mem_singleton.mp member
      exact fun c inside => .inl (List.mem_reverse.mp inside)
  | cons first rest ih =>
      by_cases blank : isBlank first
      · rw [List.splitOnPPrepend_cons_pos blank] at member
        intro c inside
        obtain rfl | later := List.mem_cons.mp member
        · exact .inl (List.mem_reverse.mp inside)
        · obtain ⟨inRest, solid⟩ := (ih later c inside).resolve_left List.not_mem_nil
          exact .inr ⟨List.mem_cons_of_mem first inRest, solid⟩
      · have solid := Bool.not_eq_true _ ▸ blank
        rw [List.splitOnPPrepend_cons_neg solid] at member
        intro c inside
        obtain before | ⟨inRest, solidLater⟩ := ih member c inside
        · obtain rfl | before := List.mem_cons.mp before
          · exact .inr ⟨List.mem_cons_self, solid⟩
          · exact .inl before
        · exact .inr ⟨List.mem_cons_of_mem first inRest, solidLater⟩

/-- The characters of a word are those of the text that are not blank. -/
theorem mem_of_mem_words (member : word ∈ words text) :
    ∀ c ∈ word, c ∈ text ∧ isBlank c = false := fun c inside =>
  (mem_of_mem_splitOnP (List.mem_of_mem_filter member) c inside).resolve_left List.not_mem_nil

theorem isBlank_of_mem_words (member : word ∈ words text) : ∀ c ∈ word, isBlank c = false :=
  fun c inside => (mem_of_mem_words member c inside).2

theorem ne_nil_of_mem_words (member : word ∈ words text) : word ≠ [] := by
  simpa using (List.mem_filter.mp member).2

theorem words_ne_nil (solid : isBlank c = false) (rest : List Char) : words (c :: rest) ≠ [] := by
  obtain ⟨piece, others, pieces⟩ := List.exists_cons_of_ne_nil (List.splitOnP_ne_nil isBlank rest)
  rw [words, List.splitOnP_cons_eq_if_modifyHead, if_neg (by simp [solid]), pieces]
  simp

theorem words_blanks_append (blank : ∀ c ∈ blanks, isBlank c) (text : List Char) :
    words (blanks ++ text) = words text := by
  induction blanks with
  | nil => rfl
  | cons c rest ih =>
      obtain ⟨here, later⟩ := List.forall_mem_cons.mp blank
      rw [← ih later, words, List.cons_append, List.splitOnP_cons_eq_if_modifyHead, if_pos here]
      rfl

theorem words_append (solid : ∀ c ∈ word, isBlank c = false) (nonempty : word ≠ [])
    (blank : ∀ c ∈ blanks, isBlank c) (separated : blanks ≠ []) (text : List Char) :
    words (word ++ blanks ++ text) = word :: words text := by
  obtain ⟨c, others, rfl⟩ := List.exists_cons_of_ne_nil separated
  obtain ⟨here, later⟩ := List.forall_mem_cons.mp blank
  rw [← words_blanks_append later text, words, List.append_assoc, List.cons_append,
    List.splitOnP_append_cons_of_forall_mem solid c here,
    List.filter_cons_of_pos (by simp [nonempty])]
  rfl

end Words

/-! Numerals. -/

section Numerals

variable {text : List Char}

theorem isDigit_of_isNumeral (numeral : isNumeral text) : ∀ c ∈ text, isDigit c ∨ c = '.' := by
  have split : text.takeWhile isDigit ++ text.dropWhile isDigit = text :=
    List.takeWhile_append_dropWhile
  intro c member
  rw [← split, List.mem_append] at member
  obtain whole | fraction := member
  · exact .inl (List.mem_takeWhile_imp whole)
  · simp only [isNumeral, Bool.and_eq_true] at numeral
    obtain ⟨-, numeral⟩ := numeral
    cases rest : text.dropWhile isDigit with
    | nil =>
        rw [rest] at fraction
        cases fraction
    | cons point digits =>
        simp only [rest, Bool.and_eq_true, beq_iff_eq, List.all_eq_true] at numeral
        rw [rest, List.mem_cons] at fraction
        exact fraction.elim (fun same => .inr (same.trans numeral.1.1)) fun later =>
          .inl (numeral.2 c later)

theorem notMem_of_isNumeral (numeral : isNumeral text) {sign : Char}
    (notDigit : isDigit sign = false) (notPoint : sign ≠ '.') : sign ∉ text := by
  intro member
  obtain digit | point := isDigit_of_isNumeral numeral sign member
  · rw [digit] at notDigit
    cases notDigit
  · exact notPoint point

theorem isNumeral_cons {c : Char} (notDigit : isDigit c = false) (rest : List Char) :
    isNumeral (c :: rest) = false := by
  simp [isNumeral, notDigit]

end Numerals

end Text

namespace Shorthand

variable {token : String} {text head : List Char} {tail : List (List Char)}
  {declaration : Declaration}

/-- The rules by which a trimmed token gets its meaning, with its first word and the others. -/
inductive Rule (text head : List Char) (tail : List (List Char)) : Declaration → Prop
  | background : head = "bg".toList → [' '].intercalate tail ≠ [] →
      Rule text head tail ⟨"background-color", String.ofList ([' '].intercalate tail)⟩
  | radius : head = "rd".toList → [' '].intercalate tail ≠ [] →
      Rule text head tail ⟨"border-radius", String.ofList (pixels ([' '].intercalate tail))⟩
  | named : head ∈ classes → Rule text head tail ⟨"class", String.ofList head⟩
  | number : head ∉ classes → isNumeral text →
      Rule text head tail ⟨"width", String.ofList (text ++ ['%'])⟩
  | percentage : head ∉ classes → isPercentage text →
      Rule text head tail ⟨"width", String.ofList text⟩
  | property {declaration : Declaration} : head ∉ classes →
      property? text = some declaration →
      (head = "bg".toList ∨ head = "rd".toList → [' '].intercalate tail = []) →
      Rule text head tail declaration

theorem exists_rule (resolved : resolve token = some declaration) :
    ∃ head tail, words (trim token.toList) = head :: tail ∧
      Rule (trim token.toList) head tail declaration := by
  rw [resolve, resolveTrimmed] at resolved
  split at resolved
  · cases resolved
  next head tail split =>
    refine ⟨head, tail, split, ?_⟩
    simp only at resolved
    split at resolved
    next background =>
      obtain rfl := Option.some.inj resolved
      exact .background background.1 background.2
    next notBackground =>
      split at resolved
      next radius =>
        obtain rfl := Option.some.inj resolved
        exact .radius radius.1 radius.2
      next notRadius =>
        split at resolved
        next named =>
          obtain rfl := Option.some.inj resolved
          exact .named named
        next unnamed =>
          split at resolved
          next numeral =>
            obtain rfl := Option.some.inj resolved
            exact .number unnamed numeral
          split at resolved
          next percentage =>
            obtain rfl := Option.some.inj resolved
            exact .percentage unnamed percentage
          next =>
            refine .property unnamed resolved ?_
            rintro (background | radius)
            · exact not_not.mp fun rest => notBackground ⟨background, rest⟩
            · exact not_not.mp fun rest => notRadius ⟨radius, rest⟩

/-- A property is a name, at least one blank, and a value on one line. -/
structure Property (text blanks : List Char) (declaration : Declaration) : Prop where
  whole : text = declaration.key.toList ++ blanks ++ declaration.value.toList
  named : declaration.key.toList ≠ []
  letters : ∀ c ∈ declaration.key.toList, isPropertyChar c
  separated : blanks ≠ []
  blank : ∀ c ∈ blanks, isBlank c
  valued : declaration.value.toList ≠ []
  begins : ∀ c, declaration.value.toList.head? = some c → isBlank c = false
  single : '\n' ∉ declaration.value.toList

theorem isBlank_of_isPropertyChar {c : Char} (letter : isPropertyChar c) : isBlank c = false := by
  cases Bool.or_eq_true_iff.mp letter with
  | inl alpha => exact Name.isBlank_of_isHead alpha
  | inr dash =>
      rw [beq_iff_eq.mp dash]
      rfl

theorem isDigit_of_isPropertyChar {c : Char} (letter : isPropertyChar c) : isDigit c = false := by
  have starts : ∀ start ∈ zeroDigits, start = 0x30 ∨ 0x660 ≤ start := by decide
  have range : c.toNat = 45 ∨ (65 ≤ c.toNat ∧ c.toNat ≤ 122) := by
    cases Bool.or_eq_true_iff.mp letter with
    | inl alpha =>
        right
        have code := Name.code_of_isHead alpha
        omega
    | inr dash =>
        rw [beq_iff_eq.mp dash]
        exact .inl rfl
  rw [isDigit, List.any_eq_false]
  intro start member
  have place := starts start member
  simp only [Bool.and_eq_true, decide_eq_true_eq, not_and, Nat.not_lt]
  omega

theorem property?_eq_some_iff :
    property? text = some declaration ↔ ∃ blanks, Property text blanks declaration := by
  constructor
  · intro found
    rw [property?] at found
    split at found
    next parts =>
      obtain ⟨named, separated, valued, single⟩ := parts
      obtain rfl := Option.some.inj found
      have whole : text.takeWhile isPropertyChar ++ text.dropWhile isPropertyChar = text :=
        List.takeWhile_append_dropWhile
      have after : (text.dropWhile isPropertyChar).takeWhile isBlank ++
          trimStart (text.dropWhile isPropertyChar) = text.dropWhile isPropertyChar :=
        List.takeWhile_append_dropWhile
      refine ⟨(text.dropWhile isPropertyChar).takeWhile isBlank, ?_⟩
      constructor
      case whole => rw [String.toList_ofList, String.toList_ofList, List.append_assoc, after, whole]
      case named => rwa [String.toList_ofList]
      case letters =>
        rw [String.toList_ofList]
        exact fun c member => List.mem_takeWhile_imp member
      case separated =>
        intro empty
        rw [empty, List.nil_append] at after
        exact separated after.symm
      case blank => exact fun c member => List.mem_takeWhile_imp member
      case valued => rwa [String.toList_ofList]
      case begins =>
        intro c first
        have stops := List.head?_dropWhile_not isBlank (text.dropWhile isPropertyChar)
        rw [String.toList_ofList, trimStart] at first
        rwa [first] at stops
      case single => rwa [String.toList_ofList]
    next => cases found
  · rintro ⟨blanks, property⟩
    obtain ⟨first, others, separated⟩ := List.exists_cons_of_ne_nil property.separated
    have firstBlank : isBlank first := property.blank first (separated ▸ List.mem_cons_self)
    have nameEnds : ∀ c, (blanks ++ declaration.value.toList).head? = some c →
        isPropertyChar c = false := by
      intro c begins
      rw [separated] at begins
      obtain rfl := Option.some.inj begins
      rw [← Bool.not_eq_true]
      intro letter
      rw [isBlank_of_isPropertyChar letter] at firstBlank
      cases firstBlank
    obtain ⟨key, tail⟩ := span_append property.letters nameEnds
    have value := (span_append property.blank property.begins).2
    have longer : blanks ++ declaration.value.toList ≠ declaration.value.toList := by
      simpa using property.separated
    rw [property.whole, List.append_assoc, property?]
    simp only [key, tail, trimStart, value]
    rw [if_pos ⟨property.named, longer, property.valued, property.single⟩]
    simp

/-! The declarations that tokens stand for. -/

/-- The names of properties that no other rule takes. -/
structure IsName (key : List Char) : Prop where
  nonempty : key ≠ []
  letters : ∀ c ∈ key, isPropertyChar c
  unreserved : key ∉ "bg".toList :: "rd".toList :: classes

structure IsValue (value : List Char) : Prop where
  nonempty : value ≠ []
  unpadded : Unpadded value
  single : '\n' ∉ value

theorem words_property {blanks : List Char} (property : Property text blanks declaration) :
    words text = declaration.key.toList :: words declaration.value.toList := by
  have solid : ∀ c ∈ declaration.key.toList, isBlank c = false := fun c member =>
    isBlank_of_isPropertyChar (property.letters c member)
  rw [property.whole]
  exact words_append solid property.named property.blank property.separated _

theorem isName_key (resolved : resolve token = some declaration) :
    IsName declaration.key.toList := by
  obtain ⟨head, tail, split, rule⟩ := exists_rule resolved
  have unreserved : ∀ key ∈ ["background-color", "border-radius", "class", "width"],
      key.toList ∉ "bg".toList :: "rd".toList :: classes := by decide
  cases rule with
  | background | radius | named | number | percentage =>
      exact ⟨by simp, by simp [isPropertyChar], unreserved _ (by simp)⟩
  | property unnamed found exhausted =>
      obtain ⟨blanks, property⟩ := property?_eq_some_iff.mp found
      refine ⟨property.named, property.letters, ?_⟩
      obtain ⟨rfl, rfl⟩ := List.cons.inj (split.symm.trans (words_property property))
      -- the value has a word, so the rules for colours and corners would have applied
      have rest : [' '].intercalate (words declaration.value.toList) ≠ [] := by
        obtain ⟨c, others, value⟩ := List.exists_cons_of_ne_nil property.valued
        have solid : isBlank c = false := property.begins c (by rw [value]; rfl)
        obtain ⟨word, later, split⟩ := List.exists_cons_of_ne_nil (words_ne_nil solid others)
        have nonempty := ne_nil_of_mem_words (split ▸ List.mem_cons_self)
        rw [value, split]
        cases later <;> simp [List.intercalate_cons_cons, nonempty]
      rw [List.mem_cons, List.mem_cons, ← or_assoc, not_or]
      exact ⟨fun reserved => rest (exhausted reserved), unnamed⟩

theorem notMem_of_isPercentage {sign : Char} (percentage : isPercentage text)
    (notDigit : isDigit sign = false) (notPoint : sign ≠ '.') (notUnit : sign ≠ '%') :
    sign ∉ text := by
  rw [isPercentage, Bool.and_eq_true, beq_iff_eq] at percentage
  obtain ⟨unit, numeral⟩ := percentage
  obtain ⟨init, rfl⟩ := List.getLast?_eq_some_iff.mp unit
  rw [List.dropLast_concat] at numeral
  simp [notMem_of_isNumeral numeral notDigit notPoint, notUnit]

theorem notMem_pixels {sign : Char} (absent : sign ∉ text) (notUnit : sign ∉ "px".toList) :
    sign ∉ pixels text := by
  unfold pixels
  split
  · exact List.not_mem_append absent notUnit
  · exact absent

theorem isValue_intercalate {text : List Char} (listed : ∀ word ∈ tail, word ∈ words text)
    (nonempty : [' '].intercalate tail ≠ []) : IsValue ([' '].intercalate tail) where
  nonempty := nonempty
  unpadded := by
    apply unpadded_intercalate
    intro word member
    have inText := listed word member
    exact ⟨ne_nil_of_mem_words inText, unpadded_of_forall (isBlank_of_mem_words inText)⟩
  single := by
    apply (notMem_intercalate_iff (by decide)).mpr
    intro word member inside
    have notBlank := isBlank_of_mem_words (listed word member) _ inside
    cases notBlank

theorem IsValue.pixels {value : List Char} (isValue : IsValue value) :
    IsValue (pixels value) := by
  have unit : Unpadded "px".toList := trim_eq_self_iff.mp (by decide)
  refine ⟨?_, ?_, notMem_pixels isValue.single (by decide)⟩
  · unfold Shorthand.pixels
    split
    · simp
    · exact isValue.nonempty
  · unfold Shorthand.pixels
    split
    · have longer := isValue.unpadded.append [] unit isValue.nonempty (by decide)
      rwa [List.append_nil] at longer
    · exact isValue.unpadded

theorem isValue_value (resolved : resolve token = some declaration) :
    IsValue declaration.value.toList := by
  obtain ⟨head, tail, split, rule⟩ := exists_rule resolved
  have unpadded : Unpadded (trim token.toList) := trim_eq_self_iff.mp (trim_trim token.toList)
  have nonempty : trim token.toList ≠ [] := by
    intro empty
    rw [empty] at split
    cases split
  have listed : ∀ word ∈ tail, word ∈ words (trim token.toList) := fun word member =>
    split ▸ List.mem_cons_of_mem head member
  cases rule with
  | background key rest =>
      rw [String.toList_ofList]
      exact isValue_intercalate listed rest
  | radius key rest =>
      rw [String.toList_ofList]
      exact (isValue_intercalate listed rest).pixels
  | named isClass =>
      have each : ∀ word ∈ classes, word ≠ [] ∧ trim word = word ∧ '\n' ∉ word := by decide
      obtain ⟨filled, trimmed, single⟩ := each head isClass
      rw [String.toList_ofList]
      exact ⟨filled, trim_eq_self_iff.mp trimmed, single⟩
  | number unnamed numeral =>
      have unit : Unpadded ['%'] := trim_eq_self_iff.mp (by decide)
      have longer := unpadded.append [] unit nonempty (List.cons_ne_nil _ _)
      rw [List.append_nil] at longer
      rw [String.toList_ofList]
      refine ⟨by simp, longer, ?_⟩
      exact List.not_mem_append (notMem_of_isNumeral numeral rfl (by decide)) (by decide)
  | percentage unnamed percentage =>
      rw [String.toList_ofList]
      exact ⟨nonempty, unpadded, notMem_of_isPercentage percentage rfl (by decide) (by decide)⟩
  | property unnamed found =>
      obtain ⟨blanks, property⟩ := property?_eq_some_iff.mp found
      refine ⟨property.valued, ⟨property.begins, ?_⟩, property.single⟩
      intro c ends
      apply unpadded.last c
      rw [property.whole, List.getLast?_append_of_ne_nil _ property.valued, ends]

theorem isPropertyChar_key (resolved : resolve token = some declaration) :
    ∀ c ∈ declaration.key.toList, isPropertyChar c :=
  (isName_key resolved).letters

theorem notMem_key {sign : Char} (resolved : resolve token = some declaration)
    (outside : isPropertyChar sign = false) : sign ∉ declaration.key.toList := by
  intro member
  rw [isPropertyChar_key resolved sign member] at outside
  cases outside

/-! Every declaration has a token of its own. -/

end Shorthand

/-- A declaration as a token that names its property. -/
def Declaration.longhand (declaration : Declaration) : String :=
  declaration.key ++ " " ++ declaration.value

namespace Shorthand

variable {token : String} {declaration : Declaration}

theorem resolve_longhand (isName : IsName declaration.key.toList)
    (isValue : IsValue declaration.value.toList) :
    resolve declaration.longhand = some declaration := by
  have property : Property declaration.longhand.toList [' '] declaration :=
    ⟨by simp [Declaration.longhand], isName.nonempty, isName.letters, List.cons_ne_nil _ _,
      by simp [isBlank], isValue.nonempty, isValue.unpadded.first, isValue.single⟩
  obtain ⟨c, rest, key⟩ := List.exists_cons_of_ne_nil isName.nonempty
  have letter : isPropertyChar c := isName.letters c (key ▸ List.mem_cons_self)
  have solid : Unpadded declaration.key.toList := unpadded_of_forall fun c member =>
    isBlank_of_isPropertyChar (isName.letters c member)
  have trimmed : trim declaration.longhand.toList = declaration.longhand.toList := by
    rw [trim_eq_self_iff, property.whole]
    exact solid.append [' '] isValue.unpadded isName.nonempty isValue.nonempty
  have begins : declaration.longhand.toList = c :: (rest ++ [' '] ++ declaration.value.toList) := by
    rw [property.whole, key]
    rfl
  have numeral : isNumeral declaration.longhand.toList = false := by
    rw [begins]
    exact isNumeral_cons (isDigit_of_isPropertyChar letter) _
  have percentage : isPercentage declaration.longhand.toList = false := by
    have shorter : declaration.longhand.toList.dropLast =
        c :: (rest ++ [' '] ++ declaration.value.toList).dropLast := by
      rw [begins]
      exact List.dropLast_cons_of_ne_nil (by simp)
    rw [isPercentage, shorter, isNumeral_cons (isDigit_of_isPropertyChar letter), Bool.and_false]
  obtain ⟨notBackground, notRadius, unnamed⟩ : declaration.key.toList ≠ "bg".toList ∧
      declaration.key.toList ≠ "rd".toList ∧ declaration.key.toList ∉ classes := by
    simpa only [List.mem_cons, not_or] using isName.unreserved
  rw [resolve, trimmed, resolveTrimmed, words_property property]
  simp only [notBackground, notRadius, unnamed, numeral, percentage, false_and, if_false,
    Bool.false_eq_true]
  exact property?_eq_some_iff.mpr ⟨[' '], property⟩

end Shorthand

end Wireframe
