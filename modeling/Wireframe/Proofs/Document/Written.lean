import Wireframe.Proofs.Document.Cutting
import Wireframe.Proofs.Style.Longhand

/-! Lines in which some style tokens are written out. A label is found whatever comes after its
colon, so the labels and anchors of such a line are those of the other, where they were. -/

namespace Wireframe

open Text

namespace Labelled

variable {fresh : Bool} {text front before after : List Char} {found : Labelled}

/-- What comes after a colon does not tell whether a label comes before. -/
theorem ofText?_append_colon (unlabelled : ofText? (front ++ ':' :: after) = none)
    (other : List Char) : ofText? (front ++ ':' :: other) = none := by
  rw [Option.eq_none_iff_forall_ne_some] at unlabelled ⊢
  intro label labelled
  obtain ⟨split, plain, blank⟩ := ofText?_eq_some_iff.mp labelled
  have noColon := notMem_name_gap plain blank
  have different : front ≠ label.name ++ label.gap := by
    rintro rfl
    exact unlabelled ⟨label.name, label.gap, after⟩ (ofText?_eq_some_iff.mpr ⟨rfl, plain, blank⟩)
  obtain ⟨beyond, name, rest⟩ | ⟨beyond, inFront, rest⟩ := List.append_eq_append_iff.mp split
  · cases beyond with
    | nil => exact different (by rw [name, List.append_nil])
    | cons c others =>
        obtain ⟨rfl, -⟩ := List.cons.inj rest
        rw [name] at noColon
        simp at noColon
  · cases beyond with
    | nil => exact different (by rw [inFront, List.append_nil])
    | cons c others =>
        -- the label ends at an earlier colon, so it is one whatever comes after
        obtain ⟨rfl, -⟩ := List.cons.inj rest
        refine unlabelled ⟨label.name, label.gap, others ++ ':' :: after⟩ ?_
        refine ofText?_eq_some_iff.mpr ⟨?_, plain, blank⟩
        rw [inFront, List.append_assoc]
        rfl

theorem ofText?_with_after (labelled : ofText? text = some found) (other : List Char) :
    ofText? (found.name ++ found.gap ++ ':' :: other) = some { found with after := other } := by
  obtain ⟨-, plain, blank⟩ := ofText?_eq_some_iff.mp labelled
  exact ofText?_eq_some_iff.mpr ⟨rfl, plain, blank⟩

/-- The first label is found whatever comes after its colon. -/
theorem find?_append_colon (labelled : find? fresh text = some (before, found))
    (other : List Char) :
    find? fresh (before ++ found.name ++ found.gap ++ ':' :: other) =
      some (before, { found with after := other }) := by
  induction text generalizing fresh before with
  | nil => cases labelled
  | cons c rest ih =>
      simp only [find?] at labelled
      split at labelled
      next first here =>
        obtain ⟨rfl, rfl⟩ := Prod.mk.inj (Option.some.inj labelled)
        cases fresh with
        | false => cases here
        | true =>
            rw [if_pos rfl] at here
            obtain ⟨head, tail, named, -⟩ := exists_head here
            have again := ofText?_with_after here other
            rw [named, List.cons_append, List.cons_append] at again
            rw [List.nil_append, named, List.cons_append, List.cons_append, find?, if_pos rfl,
              again]
      next missing =>
        obtain ⟨⟨later, label⟩, inner, same⟩ := Option.map_eq_some_iff.mp labelled
        obtain ⟨rfl, rfl⟩ := Prod.mk.inj same
        obtain ⟨split, -, -, -⟩ := find?_eq_some inner
        have absent : (if fresh then ofText? (c :: (later ++ label.name ++ label.gap ++
            ':' :: other)) else none) = none := by
          cases fresh with
          | false => rfl
          | true =>
              rw [if_pos rfl, split, ← List.cons_append] at missing
              exact ofText?_append_colon missing other
        rw [List.cons_append, List.cons_append, List.cons_append, find?, absent, ih inner]
        rfl

end Labelled

/-- The same name, with tokens of which some may be written out. -/
def SpellsAll (styled other : String × List String) : Prop :=
  other.1 = styled.1 ∧ List.Forall₂ Shorthand.Spells styled.2 other.2

namespace Anchor

/-- An anchor, and one in whose body some tokens are written out. -/
inductive WritesOut (anchor : Anchor) : Anchor → Prop
  | body {body : List Char} : Style.WritesOut anchor.body body →
      WritesOut anchor { anchor with body := body }

variable {anchor : Anchor} {anchors others : List Anchor} {last text : List Char}

theorem assemble_cons (anchor : Anchor) (anchors : List Anchor) (last : List Char) :
    assemble (anchor :: anchors) last =
      anchor.kept ++ ':' :: (anchor.body ++ assemble anchors last) := by
  simp [assemble, removed]

theorem head?_assemble (writes : List.Forall₂ WritesOut anchors others) (last : List Char) :
    (assemble others last).head? = (assemble anchors last).head? := by
  cases writes with
  | nil => rfl
  | cons first _ =>
      cases first with
      | body => simp [assemble_cons, kept, List.head?_append]

theorem notMem_assemble {sign : Char} (writes : List.Forall₂ WritesOut anchors others)
    (foreign : Shorthand.Foreign sign) (distinct : sign ≠ ';')
    (absent : sign ∉ assemble anchors last) : sign ∉ assemble others last := by
  induction writes with
  | nil => exact absent
  | cons first _ ih =>
      cases first with
      | body writes =>
          simp only [assemble_cons, List.mem_append, List.mem_cons, not_or] at absent ⊢
          obtain ⟨front, colon, body, back⟩ := absent
          exact ⟨front, colon, writes.notMem foreign distinct body, ih back⟩

theorem solidEnd_assemble (writes : List.Forall₂ WritesOut anchors others)
    (ends : SolidEnd (assemble anchors last)) : SolidEnd (assemble others last) := by
  induction writes with
  | nil => exact ends
  | @cons anchor other anchors others first later ih =>
      cases first with
      | body writes =>
          rw [assemble_cons, solidEnd_append_cons_iff (by decide)] at ends ⊢
          have heads := head?_assemble later last
          cases rest : assemble anchors last with
          | nil =>
              rw [rest, List.head?_nil, List.head?_eq_none_iff] at heads
              rw [rest, List.append_nil] at ends
              rw [heads, List.append_nil]
              exact writes.solidEnd ends
          | cons c back =>
              rw [rest, List.head?_cons, List.head?_eq_some_iff] at heads
              obtain ⟨changed, heads⟩ := heads
              have filled : assemble anchors last ≠ [] := by simp [rest]
              have changedFilled : assemble others last ≠ [] := by simp [heads]
              rw [SolidEnd, List.getLast?_append_of_ne_nil _ filled] at ends
              rw [SolidEnd, List.getLast?_append_of_ne_nil _ changedFilled]
              exact ih ends

/-- The anchors are cut where they were. -/
theorem decompose_assemble (writes : List.Forall₂ WritesOut (decompose text).1 others) :
    decompose (assemble others (decompose text).2) = (others, (decompose text).2) := by
  induction text using decompose.induct generalizing others with
  | case1 text unlabelled =>
      rw [decompose_of_none unlabelled] at writes ⊢
      obtain rfl := List.forall₂_nil_left_iff.mp writes
      exact decompose_of_none unlabelled
  | case2 text before found labelled anchors last equal ih =>
      have cuts := cuts_decompose (found.after.dropWhile (!isDelimiter ·))
      rw [equal] at cuts ih
      simp only [decompose_of_some labelled, equal] at writes ⊢
      obtain ⟨_, later, first, rest, rfl⟩ := List.forall₂_cons_left_iff.mp writes
      cases first with
      | @body body first =>
          have undelimited : ∀ c ∈ body, (!isDelimiter c) = true := by
            intro c member
            rw [Bool.not_eq_true', ← Bool.not_eq_true]
            intro delimiter
            have absent : c ∉ found.after.takeWhile (!isDelimiter ·) := fun inside => by
              have outside := List.mem_takeWhile_imp inside
              rw [delimiter] at outside
              cases outside
            refine first.notMem (Shorthand.foreign_of_isDelimiter delimiter) ?_ absent member
            rintro rfl
            cases delimiter
          -- what comes after the body begins as it did, with a delimiter
          have delimited : ∀ c, (assemble later last).head? = some c →
              (!isDelimiter c) = false := by
            intro c begins
            rw [head?_assemble rest, ← cuts.whole] at begins
            rw [delimited_dropWhile found.after c begins]
            rfl
          obtain ⟨taken, dropped⟩ := span_append undelimited delimited
          have again := Labelled.find?_append_colon labelled (body ++ assemble later last)
          rw [assemble_cons, kept, decompose_of_some again]
          simp only [taken, dropped, ih rest]

theorem forall₂_styles (writes : List.Forall₂ WritesOut anchors others) :
    let styles := fun anchors : List Anchor =>
      (anchors.map fun anchor => (anchor.entity, anchor.tokens)).filter
        fun (_, tokens) => !tokens.isEmpty
    List.Forall₂ SpellsAll (styles anchors) (styles others) := by
  induction writes with
  | nil => exact .nil
  | @cons anchor _ _ _ first _ ih =>
      cases first with
      | body writes =>
          have spells := writes.forall₂_tokens
          cases tokens : Style.tokens anchor.body with
          | nil =>
              rw [tokens] at spells
              have empty := List.forall₂_nil_left_iff.mp spells
              simpa [Anchor.tokens, tokens, empty] using ih
          | cons token rest =>
              rw [tokens] at spells
              obtain ⟨target, targets, first, later, written⟩ :=
                List.forall₂_cons_left_iff.mp spells
              have pair : SpellsAll (anchor.entity, token :: rest)
                  (anchor.entity, target :: targets) := ⟨rfl, .cons first later⟩
              simpa [Anchor.tokens, entity, tokens, written] using List.Forall₂.cons pair ih

theorem styles_assemble
    (writes : List.Forall₂ WritesOut (decompose text).1 others) :
    List.Forall₂ SpellsAll (styles text) (styles (assemble others (decompose text).2)) := by
  rw [styles, styles, decompose_assemble writes]
  exact forall₂_styles writes

theorem flatMap_kept (writes : List.Forall₂ WritesOut anchors others) :
    others.flatMap kept = anchors.flatMap kept := by
  induction writes with
  | nil => rfl
  | cons first _ ih =>
      cases first with
      | body => rw [List.flatMap_cons, List.flatMap_cons, ih]; rfl

theorem remainder_assemble
    (writes : List.Forall₂ WritesOut (decompose text).1 others) :
    remainder (assemble others (decompose text).2) = remainder text := by
  rw [remainder, decompose_assemble writes]
  exact congrArg (fun front => trim (front ++ (decompose text).2)) (flatMap_kept writes)

/-- An anchor is cut from one text if it is from the other. -/
theorem remainder_eq_assemble_iff (unpadded : Unpadded text)
    (writes : List.Forall₂ WritesOut (decompose text).1 others) :
    remainder text = assemble others (decompose text).2 ↔ remainder text = text := by
  have whole := (cuts_decompose text).whole
  have ends : SolidEnd (assemble (decompose text).1 (decompose text).2) :=
    whole ▸ unpadded.last
  have unpaddedOther : Unpadded (assemble others (decompose text).2) := by
    refine ⟨?_, solidEnd_assemble writes ends⟩
    rw [head?_assemble writes, ← whole]
    exact unpadded.first
  have empty : others = [] ↔ (decompose text).1 = [] := by
    rw [← List.length_eq_zero_iff, ← List.length_eq_zero_iff, writes.length_eq]
  rw [remainder_eq_self_iff (trim_eq_self_iff.mpr unpadded), ← remainder_assemble writes,
    remainder_eq_self_iff (trim_eq_self_iff.mpr unpaddedOther), decompose_assemble writes, empty]

end Anchor

namespace Line

/-- A trimmed line, and one in which some style tokens are written out. -/
inductive WritesOut (text : List Char) : List Char → Prop
  | style {label : Labelled} {body : List Char} : Labelled.ofText? text = some label →
      Style.WritesOut label.after body →
      WritesOut text (label.name ++ label.gap ++ ':' :: body)
  | layout {anchors : List Anchor} : Labelled.ofText? text = none →
      List.Forall₂ Anchor.WritesOut (Anchor.decompose text).1 anchors →
      WritesOut text (Anchor.assemble anchors (Anchor.decompose text).2)

variable {text other : List Char}

theorem WritesOut.head?_eq (writes : WritesOut text other) : other.head? = text.head? := by
  cases writes with
  | style labelled =>
      rw [(Labelled.ofText?_eq_some_iff.mp labelled).1]
      simp [List.head?_append]
  | layout unlabelled writes =>
      rw [Anchor.head?_assemble writes, ← (Anchor.cuts_decompose text).whole]

theorem WritesOut.unpadded (writes : WritesOut text other) (unpadded : Unpadded text) :
    Unpadded other where
  first c begins := unpadded.first c (writes.head?_eq ▸ begins)
  last := by
    have ends : SolidEnd text := unpadded.last
    cases writes with
    | style labelled writes =>
        rw [(Labelled.ofText?_eq_some_iff.mp labelled).1, solidEnd_append_cons_iff (by decide)]
          at ends
        exact (solidEnd_append_cons_iff (by decide)).mpr (writes.solidEnd ends)
    | layout unlabelled writes =>
        rw [(Anchor.cuts_decompose text).whole] at ends
        exact Anchor.solidEnd_assemble writes ends

theorem WritesOut.notMem (writes : WritesOut text other) {sign : Char}
    (foreign : Shorthand.Foreign sign) (distinct : sign ≠ ';') (absent : sign ∉ text) :
    sign ∉ other := by
  cases writes with
  | style labelled writes =>
      rw [(Labelled.ofText?_eq_some_iff.mp labelled).1] at absent
      simp only [List.mem_append, List.mem_cons, not_or] at absent ⊢
      obtain ⟨front, colon, body⟩ := absent
      exact ⟨front, colon, writes.notMem foreign distinct body⟩
  | layout unlabelled writes =>
      rw [(Anchor.cuts_decompose text).whole] at absent
      exact Anchor.notMem_assemble writes foreign distinct absent

/-- A layout line stays one. -/
theorem ofText?_assemble {anchors : List Anchor} (unlabelled : Labelled.ofText? text = none)
    (writes : List.Forall₂ Anchor.WritesOut (Anchor.decompose text).1 anchors) :
    Labelled.ofText? (Anchor.assemble anchors (Anchor.decompose text).2) = none := by
  have whole := (Anchor.cuts_decompose text).whole
  cases split : (Anchor.decompose text).1 with
  | nil =>
      rw [split] at writes whole
      obtain rfl := List.forall₂_nil_left_iff.mp writes
      rwa [whole] at unlabelled
  | cons anchor rest =>
      rw [split] at writes whole
      obtain ⟨_, later, first, -, rfl⟩ := List.forall₂_cons_left_iff.mp writes
      cases first with
      | body =>
          rw [whole, Anchor.assemble_cons] at unlabelled
          rw [Anchor.assemble_cons]
          exact Labelled.ofText?_append_colon unlabelled _

end Line

end Wireframe
