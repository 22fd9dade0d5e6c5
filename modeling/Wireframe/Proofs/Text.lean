import Mathlib.Data.List.DropRight
import Wireframe.Text.Blank
import Wireframe.Text.Line
import Wireframe.Text.Span

/-! Blanks around a text do not count for what trimming leaves, the pieces between separators
hold no separator, and byte sizes tell which of two beginnings of a text is longer. -/

namespace Wireframe.Text

theorem notMem_of_mem_splitOn {separator : Char} {text piece : List Char}
    (member : piece ∈ text.splitOn separator) : separator ∉ piece := by
  induction text generalizing piece with
  | nil =>
      rw [List.splitOn_nil, List.mem_singleton] at member
      simp [member]
  | cons c rest ih =>
      rw [List.splitOn_cons_eq_if_modifyHead] at member
      by_cases same : c = separator
      · rw [if_pos (beq_iff_eq.mpr same)] at member
        cases List.mem_cons.mp member with
        | inl empty => simp [empty]
        | inr later => exact ih later
      · rw [if_neg (by simpa using same)] at member
        cases pieces : rest.splitOn separator with
        | nil => simp [pieces] at member
        | cons first others =>
            rw [pieces, List.modifyHead_cons] at member
            rw [pieces] at ih
            cases List.mem_cons.mp member with
            | inl extended =>
                rw [extended, List.mem_cons, not_or]
                exact ⟨Ne.symm same, ih List.mem_cons_self⟩
            | inr later => exact ih (List.mem_cons_of_mem first later)

/-- A run of characters ends where the first other one stands. -/
theorem span_append {run : Char → Bool} {text rest : List Char} (inside : ∀ c ∈ text, run c)
    (outside : ∀ c, rest.head? = some c → run c = false) :
    (text ++ rest).takeWhile run = text ∧ (text ++ rest).dropWhile run = rest := by
  rw [List.takeWhile_append_of_pos inside, List.dropWhile_append_of_pos inside]
  cases rest with
  | nil => simp
  | cons c others => simp [outside c rfl]

theorem trimEnd_append {text blanks : List Char} (blank : ∀ c ∈ blanks, isBlank c) :
    trimEnd (text ++ blanks) = trimEnd text := by
  rw [trimEnd, List.reverse_append, List.dropWhile_append_of_pos, trimEnd]
  intro c member
  exact blank c (List.mem_reverse.mp member)

theorem trim_append {text blanks : List Char} (blank : ∀ c ∈ blanks, isBlank c) :
    trim (text ++ blanks) = trim text := by
  unfold trim trimStart
  rw [List.dropWhile_append]
  split
  next empty =>
    rw [List.isEmpty_iff.mp empty, List.dropWhile_eq_nil_iff.mpr blank]
  next => exact trimEnd_append blank

theorem trim_blanks_append {blanks : List Char} (blank : ∀ c ∈ blanks, isBlank c)
    (text : List Char) : trim (blanks ++ text) = trim text := by
  rw [trim, trimStart, List.dropWhile_append_of_pos blank]
  rfl

theorem exists_dropReturn_append (segment : List Char) :
    ∃ blanks, (∀ c ∈ blanks, isBlank c) ∧ dropReturn segment ++ blanks = segment := by
  unfold dropReturn
  split
  next last =>
    obtain ⟨init, rfl⟩ := List.getLast?_eq_some_iff.mp last
    exact ⟨['\r'], by simp [isBlank], by rw [List.dropLast_concat]⟩
  next => exact ⟨[], nofun, List.append_nil segment⟩

theorem isPrefix_dropReturn (segment : List Char) : dropReturn segment <+: segment := by
  obtain ⟨blanks, -, whole⟩ := exists_dropReturn_append segment
  exact ⟨blanks, whole⟩

/-- A text is what trimming leaves with blanks around it. -/
theorem exists_trim (text : List Char) :
    ∃ trail, (∀ c ∈ trail, isBlank c) ∧ text = text.takeWhile isBlank ++ trim text ++ trail := by
  refine ⟨(trimStart text).rtakeWhile isBlank, fun _ => List.mem_rtakeWhile_imp, ?_⟩
  have inner : trim text ++ (trimStart text).rtakeWhile isBlank = trimStart text :=
    List.rdropWhile_append_rtakeWhile
  rw [List.append_assoc, inner]
  exact List.takeWhile_append_dropWhile.symm

/-- The lines of a text are its segments, but for a last one that is empty. -/
theorem exists_segments (text : List Char) : ∃ init last,
    segments text = init ++ [last] ∧
      lines text = init.map dropReturn ++ if last = [] then [] else [last] := by
  have nonempty : segments text ≠ [] := List.splitOn_ne_nil '\n' text
  refine ⟨(segments text).dropLast, (segments text).getLast nonempty,
    (List.dropLast_append_getLast nonempty).symm, ?_⟩
  rw [lines, List.getLastD_eq_getLast?, List.getLast?_eq_some_getLast nonempty, Option.getD_some]

theorem exists_segment_of_line {text line : List Char} {index : Nat}
    (found : (lines text)[index]? = some line) :
    ∃ segment, (segments text)[index]? = some segment ∧
      (segment = line ∨ dropReturn segment = line) := by
  obtain ⟨init, last, pieces, equal⟩ := exists_segments text
  rw [equal] at found
  rw [pieces]
  rcases Nat.lt_or_ge index init.length with within | beyond
  · rw [List.getElem?_append_left (by simpa using within), List.getElem?_map] at found
    obtain ⟨segment, listed, returned⟩ := Option.map_eq_some_iff.mp found
    exact ⟨segment, by rw [List.getElem?_append_left within, listed], .inr returned⟩
  · rw [List.getElem?_append_right (by simpa using beyond), List.length_map] at found
    rw [List.getElem?_append_right beyond]
    refine ⟨line, ?_, .inl rfl⟩
    split at found
    · cases found
    · exact found

theorem isBlank_head_trim {text rest : List Char} {c : Char} (begins : trim text = c :: rest) :
    isBlank c = false := by
  obtain ⟨blanks, ends⟩ : trim text <+: trimStart text :=
    List.rdropWhile_prefix isBlank (trimStart text)
  have first := List.head?_dropWhile_not isBlank text
  rw [show text.dropWhile isBlank = trimStart text from rfl, ← ends, begins] at first
  exact first

theorem trimStart_trim (text : List Char) : trimStart (trim text) = trim text := by
  cases begins : trim text with
  | nil => rfl
  | cons c rest => exact List.dropWhile_cons_of_neg (by simp [isBlank_head_trim begins])

theorem trimEnd_trim (text : List Char) : trimEnd (trim text) = trim text :=
  List.rdropWhile_idempotent isBlank (trimStart text)

theorem trim_trim (text : List Char) : trim (trim text) = trim text := by
  rw [trim, trimStart_trim, trimEnd_trim]

theorem trim_sublist (text : List Char) : (trim text).Sublist text := by
  have ends : trim text <+: trimStart text := List.rdropWhile_prefix isBlank (trimStart text)
  exact ends.sublist.trans (List.dropWhile_suffix isBlank).sublist

theorem trimEnd_append_of_ne_nil {front text : List Char} (kept : trimEnd text ≠ []) :
    trimEnd (front ++ text) = front ++ trimEnd text := by
  unfold trimEnd at kept ⊢
  rw [List.reverse_append, List.dropWhile_append, if_neg]
  · rw [List.reverse_append, List.reverse_reverse]
  · simpa using kept

theorem byteSize_eq_zero_iff {text : List Char} : byteSize text = 0 ↔ text = [] := by
  cases text with
  | nil => simp
  | cons c rest =>
      have positive := c.utf8Size_pos
      simp only [byteSize_cons, reduceCtorEq, iff_false]
      omega

/-- Of two ways to split a text, the longer first part goes on after the shorter one. -/
theorem exists_between {front text before after : List Char}
    (split : front ++ text = before ++ after) (shorter : byteSize front ≤ byteSize before) :
    ∃ between, before = front ++ between ∧ text = between ++ after := by
  obtain ⟨between, beyond, rest⟩ | ⟨excess, within, rest⟩ := List.append_eq_append_iff.mp split
  · exact ⟨between, beyond, rest⟩
  · rw [within, byteSize_append] at shorter
    obtain rfl := byteSize_eq_zero_iff.mp (show byteSize excess = 0 by omega)
    exact ⟨[], by simpa using within.symm, by simpa using rest.symm⟩

end Wireframe.Text
