import Wireframe.Diagnostic.Place
import Wireframe.Proofs.Text

/-! Where a diagnostic points. A source is its segments with a line feed after each but the
last, and the place of a diagnostic is a piece of the segment that its line numbers. -/

namespace Wireframe

open Text

namespace Text

theorem dropBytes?_append (front rest : List Char) :
    dropBytes? (byteSize front) (front ++ rest) = some rest := by
  induction front with
  | nil => cases rest <;> rfl
  | cons c front ih =>
      obtain ⟨size, positive⟩ : ∃ size, c.utf8Size = size + 1 :=
        Nat.exists_eq_add_one.mpr c.utf8Size_pos
      have within : c.utf8Size ≤ size + byteSize front + 1 := by omega
      have left : size + byteSize front + 1 - c.utf8Size = byteSize front := by omega
      rw [byteSize_cons, List.cons_append,
        show c.utf8Size + byteSize front = size + byteSize front + 1 by omega, dropBytes?,
        if_pos within, left, ih]

theorem charOffset?_append (front rest : List Char) :
    charOffset? (byteSize front) (front ++ rest) = some front.length := by
  rw [charOffset?, dropBytes?_append, Option.map_some, List.length_append,
    Nat.add_sub_cancel_right]

/-- What stands before the segment at an index. -/
def ahead (source : List Char) (index : Nat) : List Char :=
  ((segments source).take index).flatMap (· ++ ['\n'])

theorem exists_intercalate {pieces : List (List Char)} {index : Nat} {piece : List Char}
    (found : pieces[index]? = some piece) : ∃ after,
      ['\n'].intercalate pieces =
        (pieces.take index).flatMap (· ++ ['\n']) ++ piece ++ after := by
  induction pieces generalizing index with
  | nil => cases found
  | cons first rest ih =>
      cases index with
      | zero =>
          obtain rfl := Option.some.inj found
          cases rest with
          | nil => exact ⟨[], by simp⟩
          | cons next rest =>
              refine ⟨'\n' :: ['\n'].intercalate (next :: rest), ?_⟩
              rw [List.intercalate_cons_cons]
              simp
      | succ index =>
          obtain ⟨after, split⟩ := ih (List.getElem?_cons_succ ▸ found)
          cases rest with
          | nil => cases index <;> cases found
          | cons next rest =>
              refine ⟨after, ?_⟩
              rw [List.intercalate_cons_cons, split]
              simp

theorem exists_ahead {source segment : List Char} {index : Nat}
    (found : (segments source)[index]? = some segment) :
    ∃ after, source = ahead source index ++ segment ++ after := by
  obtain ⟨after, split⟩ := exists_intercalate found
  have joined : ['\n'].intercalate (segments source) = source := List.intercalate_splitOn '\n'
  rw [joined] at split
  exact ⟨after, split⟩

end Text

namespace Diagnostic

theorem segmentStart_eq (pieces : List (List Char)) (index : Nat) :
    segmentStart pieces index = byteSize ((pieces.take index).flatMap (· ++ ['\n'])) := by
  induction pieces generalizing index with
  | nil => simp [segmentStart]
  | cons first rest ih =>
      cases index with
      | zero => rfl
      | succ index =>
          rw [segmentStart, ih, List.take_succ_cons, List.flatMap_cons, byteSize_append,
            byteSize_append]
          rfl

/-- A diagnostic points at the piece of a source that stands after `front`. -/
structure Points (source : List Char) (diagnostic : Diagnostic) (front piece : List Char) :
    Prop where
  isPrefix : front ++ piece <+: source
  span : diagnostic.span? source = some ⟨byteSize front, byteSize (front ++ piece)⟩
  charSpan : diagnostic.charSpan? source = some ⟨front.length, (front ++ piece).length⟩

theorem Points.of_span {source front piece : List Char} {diagnostic : Diagnostic}
    (isPrefix : front ++ piece <+: source)
    (span : diagnostic.span? source = some ⟨byteSize front, byteSize (front ++ piece)⟩) :
    diagnostic.Points source front piece where
  isPrefix := isPrefix
  span := span
  charSpan := by
    obtain ⟨after, rfl⟩ := isPrefix
    have start := charOffset?_append front (piece ++ after)
    rw [← List.append_assoc] at start
    have stop := charOffset?_append (front ++ piece) after
    rw [charSpan?, span]
    simp only [Option.bind_eq_bind, Option.bind_some, start, stop, Option.pure_def]

section Segment

variable {source segment : List Char} {index : Nat} {diagnostic : Diagnostic}

theorem span?_of_segment (found : (segments source)[index]? = some segment)
    (numbered : diagnostic.line = some (index + 1)) :
    diagnostic.span? source =
      some (columnSpan (byteSize (ahead source index)) (dropReturn segment) diagnostic.column) := by
  rw [span?, numbered]
  simp [found, segmentStart_eq, ahead]

theorem isPrefix_of_segment (found : (segments source)[index]? = some segment)
    {front : List Char} (within : front <+: dropReturn segment) :
    ahead source index ++ front <+: source := by
  obtain ⟨after, split⟩ := exists_ahead found
  have whole : ahead source index ++ segment <+: source := ⟨after, split.symm⟩
  exact ((List.prefix_append_right_inj _).mpr (within.trans (isPrefix_dropReturn segment))).trans
    whole

/-- Without a column within the line, a diagnostic points at the whole line. -/
theorem points_whole (found : (segments source)[index]? = some segment)
    (numbered : diagnostic.line = some (index + 1))
    (beyond : ∀ column, diagnostic.column = some column →
      column = 0 ∨ byteSize (dropReturn segment) < column) :
    diagnostic.Points source (ahead source index) (dropReturn segment) := by
  refine .of_span (isPrefix_of_segment found List.prefix_rfl) ?_
  rw [span?_of_segment found numbered, byteSize_append]
  cases unplaced : diagnostic.column with
  | none => rfl
  | some column =>
      have outside := beyond column unplaced
      rw [columnSpan, if_neg (by omega)]

/-- A column within the line points at the character there. -/
theorem points_char (found : (segments source)[index]? = some segment)
    (numbered : diagnostic.line = some (index + 1)) {skipped left : List Char} {c : Char}
    (split : dropReturn segment = skipped ++ c :: left)
    (placed : diagnostic.column = some (byteSize skipped + 1)) :
    diagnostic.Points source (ahead source index ++ skipped) [c] := by
  have within : skipped ++ [c] <+: dropReturn segment := ⟨left, by simp [split]⟩
  refine .of_span ?_ ?_
  · rw [List.append_assoc]
    exact isPrefix_of_segment found within
  · have room : byteSize skipped + 1 ≤ byteSize (skipped ++ c :: left) := by
      have positive := c.utf8Size_pos
      rw [byteSize_append, byteSize_cons]
      omega
    rw [span?_of_segment found numbered, placed, columnSpan, split]
    simp only [Nat.le_add_left, room, and_self, if_true, Nat.add_sub_cancel, dropBytes?_append]
    simp [Nat.add_assoc]

end Segment

end Diagnostic

end Wireframe
