import Wireframe.Proofs.Document.Line
import Wireframe.Proofs.Text

/-! Where labels stand, and that cutting the anchors of a text leaves none: the pieces that
are kept hold no label, and a label cannot reach over the delimiter at which a piece begins. -/

namespace Wireframe

open Text

namespace Name

theorem isBlank_of_isDigit {c : Char} (digit : c.isDigit) : isBlank c = false := by
  obtain ⟨least, most⟩ : 48 ≤ c.toNat ∧ c.toNat ≤ 57 := by
    obtain ⟨least, most⟩ := Bool.and_eq_true_iff.mp digit
    exact ⟨of_decide_eq_true least, of_decide_eq_true most⟩
  simp only [isBlank, Bool.or_eq_false_iff, Bool.and_eq_false_iff, decide_eq_false_iff_not,
    beq_eq_false_iff_ne]
  omega

theorem isBlank_of_isTail {c : Char} (tail : isTail c) : isBlank c = false := by
  obtain letterOrDigit | score := Bool.or_eq_true_iff.mp tail
  · cases Bool.or_eq_true_iff.mp letterOrDigit with
    | inl letter => exact isBlank_of_isHead letter
    | inr digit => exact isBlank_of_isDigit digit
  · rw [beq_iff_eq.mp score]
    rfl

theorem isPlain_ofList {name : List Char} : IsPlain (String.ofList name) ↔
    ∃ head tail, name = head :: tail ∧ isHead head ∧ ∀ c ∈ tail, isTail c := by
  rw [IsPlain, String.toList_ofList]

theorem isTail_of_isHead {c : Char} (head : isHead c) : isTail c := by
  simp only [isHead] at head
  simp [isTail, Char.isAlphanum, head]

theorem isTail_of_isPlain {name : List Char} (plain : IsPlain (String.ofList name)) {c : Char}
    (member : c ∈ name) : isTail c := by
  obtain ⟨head, tail, rfl, isHead, isTail⟩ := isPlain_ofList.mp plain
  cases List.mem_cons.mp member with
  | inl same => exact same ▸ isTail_of_isHead isHead
  | inr later => exact isTail c later

end Name

namespace Anchor

theorem isTail_of_isDelimiter {c : Char} (delimiter : isDelimiter c) : Name.isTail c = false := by
  rw [isDelimiter, decide_eq_true_iff] at delimiter
  simp only [List.mem_cons, List.not_mem_nil, or_false] at delimiter
  rcases delimiter with rfl | rfl | rfl | rfl | rfl | rfl <;> rfl

theorem isBlank_of_isDelimiter {c : Char} (delimiter : isDelimiter c) : isBlank c = false := by
  rw [isDelimiter, decide_eq_true_iff] at delimiter
  simp only [List.mem_cons, List.not_mem_nil, or_false] at delimiter
  rcases delimiter with rfl | rfl | rfl | rfl | rfl | rfl <;> rfl

/-- Text before which a style body ends: nothing, or text that begins with a delimiter. -/
def Delimited (text : List Char) : Prop :=
  ∀ c, text.head? = some c → isDelimiter c

theorem delimited_dropWhile (text : List Char) : Delimited (text.dropWhile (!isDelimiter ·)) := by
  intro c first
  have stops := List.head?_dropWhile_not (!isDelimiter ·) text
  rw [first] at stops
  simpa using stops

end Anchor

namespace Labelled

variable {text before rest : List Char} {found : Labelled} {fresh : Bool} {c : Char}

theorem ofText?_eq_some_iff : ofText? text = some found ↔
    text = found.name ++ found.gap ++ ':' :: found.after ∧
      Name.IsPlain (String.ofList found.name) ∧ ∀ c ∈ found.gap, isBlank c := by
  constructor
  · intro labelled
    cases text with
    | nil => cases labelled
    | cons c rest =>
        simp only [ofText?] at labelled
        split at labelled
        next after colon =>
          split at labelled
          next head =>
            obtain rfl := Option.some.inj labelled
            refine ⟨?_, Name.isPlain_ofList.mpr ⟨c, _, rfl, head, ?_⟩, ?_⟩
            · simp only [List.cons_append, List.append_assoc, ← colon,
                List.takeWhile_append_dropWhile]
            · exact fun _ member => List.mem_takeWhile_imp member
            · exact fun _ member => List.mem_takeWhile_imp member
          next => cases labelled
        next => cases labelled
  · rintro ⟨equal, plain, blank⟩
    obtain ⟨name, gap, after⟩ := found
    obtain ⟨head, tail, rfl, isHead, isTail⟩ := Name.isPlain_ofList.mp plain
    -- neither a blank nor a colon goes on with the name
    have outside : ∀ c, (gap ++ ':' :: after).head? = some c → Name.isTail c = false := by
      intro c first
      cases gap with
      | nil =>
          obtain rfl := Option.some.inj first
          rfl
      | cons other others =>
          obtain rfl := Option.some.inj first
          rw [← Bool.not_eq_true]
          intro tail
          have notBlank := Name.isBlank_of_isTail tail
          rw [blank other List.mem_cons_self] at notBlank
          cases notBlank
    obtain ⟨name, gapAfter⟩ := span_append isTail outside
    have gapEnds : ∀ c, (':' :: after).head? = some c → isBlank c = false := by simp [isBlank]
    obtain ⟨gapRun, colon⟩ := span_append blank gapEnds
    rw [equal, List.append_assoc, List.cons_append, ofText?]
    simp only [name, gapAfter, gapRun, colon, isHead, if_true]

theorem ofText?_append (labelled : ofText? text = some found) (rest : List Char) :
    ofText? (text ++ rest) = some { found with after := found.after ++ rest } := by
  obtain ⟨equal, plain, blank⟩ := ofText?_eq_some_iff.mp labelled
  refine ofText?_eq_some_iff.mpr ⟨?_, plain, blank⟩
  rw [equal, List.append_assoc, List.cons_append]

theorem isDelimiter_of_mem (labelled : ofText? text = some found)
    (member : c ∈ found.name ++ found.gap ++ [':']) : Anchor.isDelimiter c = false := by
  obtain ⟨-, plain, blank⟩ := ofText?_eq_some_iff.mp labelled
  rw [← Bool.not_eq_true]
  intro delimiter
  have notTail := Anchor.isTail_of_isDelimiter delimiter
  have notBlank := Anchor.isBlank_of_isDelimiter delimiter
  simp only [List.mem_append, List.mem_singleton] at member
  obtain (inName | inGap) | rfl := member
  · rw [Name.isTail_of_isPlain plain inName] at notTail
    cases notTail
  · rw [blank c inGap] at notBlank
    cases notBlank
  · cases delimiter

/-- A label does not reach over a delimiter. -/
theorem exists_of_ofText?_append (delimited : Anchor.Delimited rest)
    (labelled : ofText? (text ++ rest) = some found) : ∃ other, ofText? text = some other := by
  obtain ⟨equal, plain, blank⟩ := ofText?_eq_some_iff.mp labelled
  have split : text ++ rest = (found.name ++ found.gap ++ [':']) ++ found.after := by
    rw [equal, List.append_assoc _ [':']]
    rfl
  obtain ⟨beyond, label, begins⟩ | ⟨after, within, -⟩ := List.append_eq_append_iff.mp split
  · cases beyond with
    | nil =>
        refine ⟨⟨found.name, found.gap, []⟩, ofText?_eq_some_iff.mpr ⟨?_, plain, blank⟩⟩
        rw [← List.append_nil text, ← label]
    | cons d others =>
        -- the text would go on with a character of the label
        have delimiter : Anchor.isDelimiter d = true := delimited d (by rw [begins]; rfl)
        rw [isDelimiter_of_mem labelled (by simp [label])] at delimiter
        cases delimiter
  · refine ⟨⟨found.name, found.gap, after⟩, ofText?_eq_some_iff.mpr ⟨?_, plain, blank⟩⟩
    rw [within, List.append_assoc]
    rfl

theorem find?_cons_eq_none_iff : find? fresh (c :: rest) = none ↔
    (fresh = true → ofText? (c :: rest) = none) ∧ find? (!Name.isTail c) rest = none := by
  rw [find?]
  cases fresh with
  | false => simp
  | true =>
      cases ofText? (c :: rest) with
      | none => simp
      | some found => simp

theorem find?_eq_none_of_notMem (absent : ':' ∉ text) : find? fresh text = none := by
  induction text generalizing fresh with
  | nil => rfl
  | cons c rest ih =>
      have absentLater : ':' ∉ rest := fun member => absent (List.mem_cons_of_mem c member)
      refine find?_cons_eq_none_iff.mpr ⟨?_, ih absentLater⟩
      intro _
      rw [Option.eq_none_iff_forall_ne_some]
      intro found labelled
      apply absent
      rw [(ofText?_eq_some_iff.mp labelled).1]
      simp

theorem find?_eq_none_of_append (unlabelled : find? fresh (text ++ rest) = none) :
    find? fresh text = none := by
  induction text generalizing fresh with
  | nil => rfl
  | cons c others ih =>
      obtain ⟨here, later⟩ := find?_cons_eq_none_iff.mp unlabelled
      refine find?_cons_eq_none_iff.mpr ⟨?_, ih later⟩
      intro isFresh
      rw [Option.eq_none_iff_forall_ne_some]
      intro found labelled
      have extended := ofText?_append labelled rest
      rw [show ofText? (c :: others ++ rest) = none from here isFresh] at extended
      cases extended

theorem find?_append_eq_none (delimited : Anchor.Delimited rest)
    (unlabelled : find? fresh text = none) (restUnlabelled : find? true rest = none) :
    find? fresh (text ++ rest) = none := by
  induction text generalizing fresh with
  | nil =>
      cases rest with
      | nil => rfl
      | cons c others =>
          obtain ⟨here, later⟩ := find?_cons_eq_none_iff.mp restUnlabelled
          exact find?_cons_eq_none_iff.mpr ⟨fun _ => here rfl, later⟩
  | cons c others ih =>
      obtain ⟨here, later⟩ := find?_cons_eq_none_iff.mp unlabelled
      refine find?_cons_eq_none_iff.mpr ⟨?_, ih later⟩
      intro isFresh
      rw [Option.eq_none_iff_forall_ne_some]
      intro found labelled
      have joined : ofText? ((c :: others) ++ rest) = some found := labelled
      obtain ⟨other, labelledHere⟩ := exists_of_ofText?_append delimited joined
      rw [here isFresh] at labelledHere
      cases labelledHere

theorem find?_trimStart (unlabelled : find? true text = none) :
    find? true (trimStart text) = none := by
  induction text with
  | nil => rfl
  | cons c rest ih =>
      by_cases blank : isBlank c
      · rw [trimStart, List.dropWhile_cons_of_pos blank]
        have notTail : Name.isTail c = false := by
          rw [← Bool.not_eq_true]
          intro tail
          rw [Name.isBlank_of_isTail tail] at blank
          cases blank
        have later := (find?_cons_eq_none_iff.mp unlabelled).2
        rw [notTail] at later
        exact ih later
      · rw [trimStart, List.dropWhile_cons_of_neg blank]
        exact unlabelled

theorem find?_trim (unlabelled : find? true text = none) : find? true (trim text) = none := by
  obtain ⟨blanks, ends⟩ : trim text <+: trimStart text :=
    List.rdropWhile_prefix isBlank (trimStart text)
  have joined : find? true (trim text ++ blanks) = none := by
    rw [ends]
    exact find?_trimStart unlabelled
  exact find?_eq_none_of_append joined

theorem ofText?_eq_none_of_find? (unlabelled : find? true text = none) :
    ofText? text = none := by
  cases text with
  | nil => rfl
  | cons c rest => exact (find?_cons_eq_none_iff.mp unlabelled).1 rfl

theorem notMem_name_gap (plain : Name.IsPlain (String.ofList found.name))
    (blank : ∀ c ∈ found.gap, isBlank c) : ':' ∉ found.name ++ found.gap := by
  rw [List.mem_append, not_or]
  constructor
  · intro member
    cases Name.isTail_of_isPlain plain member
  · intro member
    cases blank ':' member

/-- The first label of a text, and that none is left without its colon. -/
theorem find?_eq_some (labelled : find? fresh text = some (before, found)) :
    text = before ++ found.name ++ found.gap ++ ':' :: found.after ∧
      Name.IsPlain (String.ofList found.name) ∧ (∀ c ∈ found.gap, isBlank c) ∧
      find? fresh (before ++ found.name ++ found.gap) = none := by
  induction text generalizing fresh before with
  | nil => cases labelled
  | cons c rest ih =>
      simp only [find?] at labelled
      split at labelled
      next first here =>
        obtain ⟨rfl, rfl⟩ := Prod.mk.inj (Option.some.inj labelled)
        split at here
        · obtain ⟨equal, plain, blank⟩ := ofText?_eq_some_iff.mp here
          exact ⟨equal, plain, blank, find?_eq_none_of_notMem (notMem_name_gap plain blank)⟩
        · cases here
      next missing =>
        obtain ⟨⟨later, other⟩, inner, same⟩ := Option.map_eq_some_iff.mp labelled
        obtain ⟨rfl, rfl⟩ := Prod.mk.inj same
        obtain ⟨rfl, plain, blank, unlabelled⟩ := ih inner
        refine ⟨rfl, plain, blank, find?_cons_eq_none_iff.mpr ⟨?_, unlabelled⟩⟩
        intro isFresh
        rw [if_pos isFresh] at missing
        rw [Option.eq_none_iff_forall_ne_some]
        intro first here
        cases missing.symm.trans (ofText?_append here (':' :: other.after))

end Labelled

namespace Anchor

variable {text : List Char}

/-- The text without its anchors, as it stands. -/
def layoutText (text : List Char) : List Char :=
  (decompose text).1.flatMap kept ++ (decompose text).2

theorem layoutText_of_none (unlabelled : Labelled.find? true text = none) :
    layoutText text = text := by
  rw [layoutText, decompose_of_none unlabelled]
  rfl

theorem layoutText_of_some {before : List Char} {found : Labelled}
    (labelled : Labelled.find? true text = some (before, found)) :
    layoutText text = before ++ found.name ++ found.gap ++
      layoutText (found.after.dropWhile (!isDelimiter ·)) := by
  rw [layoutText, decompose_of_some labelled, List.flatMap_cons, List.append_assoc]
  rfl

theorem head?_layoutText (text : List Char) : (layoutText text).head? = text.head? := by
  cases first : Labelled.find? true text with
  | none => rw [layoutText_of_none first]
  | some pair =>
      obtain ⟨equal, plain, -, -⟩ := Labelled.find?_eq_some first
      obtain ⟨head, tail, named, -, -⟩ := Name.isPlain_ofList.mp plain
      rw [layoutText_of_some first, equal, named]
      simp [List.head?_append]

/-- A text without its anchors has no label left. -/
theorem find?_layoutText (text : List Char) : Labelled.find? true (layoutText text) = none := by
  induction text using decompose.induct with
  | case1 text unlabelled => rwa [layoutText_of_none unlabelled]
  | case2 text before found labelled anchors last equal ih =>
      obtain ⟨-, -, -, piece⟩ := Labelled.find?_eq_some labelled
      rw [layoutText_of_some labelled]
      refine Labelled.find?_append_eq_none ?_ piece ih
      rw [Delimited, head?_layoutText]
      exact delimited_dropWhile found.after

theorem length_layoutText_le (text : List Char) : (layoutText text).length ≤ text.length := by
  induction text using decompose.induct with
  | case1 text unlabelled => rw [layoutText_of_none unlabelled]
  | case2 text before found labelled anchors last equal ih =>
      obtain ⟨split, -, -, -⟩ := Labelled.find?_eq_some labelled
      have shorter := (List.dropWhile_suffix (l := found.after) (!isDelimiter ·)).length_le
      rw [layoutText_of_some labelled, split]
      simp only [List.length_append, List.length_cons]
      omega

theorem length_layoutText_lt (cut : (decompose text).1 ≠ []) :
    (layoutText text).length < text.length := by
  cases first : Labelled.find? true text with
  | none =>
      rw [decompose_of_none first] at cut
      exact absurd rfl cut
  | some pair =>
      obtain ⟨split, -, -, -⟩ := Labelled.find?_eq_some first
      have shorter := (List.dropWhile_suffix (l := pair.2.after) (!isDelimiter ·)).length_le
      have rest := length_layoutText_le (pair.2.after.dropWhile (!isDelimiter ·))
      have whole := congrArg List.length split
      rw [layoutText_of_some first]
      simp only [List.length_append, List.length_cons] at whole ⊢
      omega

theorem isPlain_entity (text : List Char) :
    ∀ anchor ∈ (decompose text).1, Name.IsPlain anchor.entity := by
  induction text using decompose.induct with
  | case1 text unlabelled =>
      rw [decompose_of_none unlabelled]
      exact nofun
  | case2 text before found labelled anchors last equal ih =>
      obtain ⟨-, plain, -, -⟩ := Labelled.find?_eq_some labelled
      rw [decompose_of_some labelled]
      intro anchor member
      cases List.mem_cons.mp member with
      | inl first => exact first ▸ plain
      | inr later => exact ih anchor later

/-! What is left of a text when its anchors are cut. -/

theorem trim_remainder (text : List Char) : trim (remainder text) = remainder text :=
  trim_trim (layoutText text)

theorem decompose_remainder (text : List Char) :
    decompose (remainder text) = ([], remainder text) :=
  decompose_of_none (Labelled.find?_trim (find?_layoutText text))

theorem ofText?_remainder (text : List Char) : Labelled.ofText? (remainder text) = none :=
  Labelled.ofText?_eq_none_of_find? (Labelled.find?_trim (find?_layoutText text))

theorem remainder_remainder (text : List Char) : remainder (remainder text) = remainder text := by
  rw [remainder, decompose_remainder]
  exact trim_remainder text

theorem styles_remainder (text : List Char) : styles (remainder text) = [] := by
  rw [styles, decompose_remainder]
  rfl

theorem remainder_eq_self_iff (trimmed : trim text = text) :
    remainder text = text ↔ (decompose text).1 = [] := by
  constructor
  · intro same
    by_contra cut
    have shorter := length_layoutText_lt cut
    have trimmedShorter := (trim_sublist (layoutText text)).length_le
    rw [show trim (layoutText text) = text from same] at trimmedShorter
    omega
  · intro uncut
    cases first : Labelled.find? true text with
    | none =>
        rw [remainder, decompose_of_none first]
        exact trimmed
    | some pair =>
        rw [decompose_of_some first] at uncut
        cases uncut

end Anchor

end Wireframe
