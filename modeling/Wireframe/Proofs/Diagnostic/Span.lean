import Wireframe.Proofs.Diagnostic.Place

/-! The place of a diagnostic for every line and column, also those that no part of a source has.
It is a line, a character of the line, or a single byte inside a character, and only the last of
these has no place among the characters of the source. -/

namespace Wireframe

open Text

namespace Text

/-- The UTF-8 form. -/
def bytes (text : List Char) : List UInt8 :=
  text.flatMap String.utf8EncodeChar

/-- The items at the positions of a span. -/
def Span.slice {α : Type} (span : Span) (items : List α) : List α :=
  (items.drop span.start).take (span.stop - span.start)

/-- A position at which a character starts or the text ends. -/
def IsBoundary (position : Nat) (text : List Char) : Prop :=
  ∃ front, front <+: text ∧ byteSize front = position

@[simp] theorem bytes_append (front back : List Char) :
    bytes (front ++ back) = bytes front ++ bytes back :=
  List.flatMap_append

@[simp] theorem length_bytes (text : List Char) : (bytes text).length = byteSize text := by
  induction text with
  | nil => rfl
  | cons c rest ih =>
      have first : (bytes (c :: rest)).length = c.utf8Size + (bytes rest).length := by
        simp [bytes, String.length_utf8EncodeChar]
      rw [first, ih, byteSize_cons]

theorem Span.slice_append {α : Type} (front piece back : List α) :
    Span.slice ⟨front.length, (front ++ piece).length⟩ (front ++ (piece ++ back)) = piece := by
  simp [slice]

variable {text front back rest : List Char} {position : Nat}

theorem dropBytes?_eq_some (found : dropBytes? position text = some rest) :
    ∃ front, front ++ rest = text ∧ byteSize front = position := by
  induction text generalizing position with
  | nil =>
      cases position with
      | zero => exact ⟨[], by simpa [dropBytes?] using found.symm, rfl⟩
      | succ position => cases found
  | cons c others ih =>
      cases position with
      | zero => exact ⟨[], by simpa [dropBytes?] using found.symm, rfl⟩
      | succ position =>
          rw [dropBytes?] at found
          split at found
          next within =>
            obtain ⟨front, split, size⟩ := ih found
            refine ⟨c :: front, by rw [List.cons_append, split], ?_⟩
            rw [byteSize_cons, size]
            omega
          next => cases found

theorem isSome_dropBytes?_iff : (dropBytes? position text).isSome ↔ IsBoundary position text := by
  constructor
  · intro found
    obtain ⟨rest, found⟩ := Option.isSome_iff_exists.mp found
    obtain ⟨front, split, size⟩ := dropBytes?_eq_some found
    exact ⟨front, ⟨rest, split⟩, size⟩
  · rintro ⟨front, ⟨rest, rfl⟩, rfl⟩
    rw [dropBytes?_append]
    rfl

theorem isSome_charOffset?_iff :
    (charOffset? position text).isSome ↔ IsBoundary position text := by
  rw [charOffset?, Option.isSome_map, isSome_dropBytes?_iff]

theorem isBoundary_append_left :
    IsBoundary (byteSize front + position) (front ++ text) ↔ IsBoundary position text := by
  constructor
  · rintro ⟨taken, ⟨rest, split⟩, size⟩
    obtain ⟨between, rfl, begins⟩ := exists_between split.symm (by omega)
    rw [byteSize_append] at size
    exact ⟨between, ⟨rest, begins.symm⟩, by omega⟩
  · rintro ⟨taken, begins, rfl⟩
    exact ⟨front ++ taken, (List.prefix_append_right_inj front).mpr begins, by simp⟩

theorem isBoundary_append_right (within : position ≤ byteSize text) :
    IsBoundary position (text ++ back) ↔ IsBoundary position text := by
  constructor
  · rintro ⟨taken, ⟨rest, split⟩, rfl⟩
    obtain ⟨between, begins, -⟩ := exists_between split within
    exact ⟨taken, ⟨between, begins.symm⟩, rfl⟩
  · rintro ⟨taken, begins, size⟩
    exact ⟨taken, begins.trans (List.prefix_append text back), size⟩

end Text

namespace Diagnostic

variable {source front line : List Char} {diagnostic : Diagnostic} {column : Nat}

/-- The line that a diagnostic is on, without its end, and what stands before it. -/
def OnLine (source : List Char) (diagnostic : Diagnostic) (front line : List Char) : Prop :=
  ∃ index segment, diagnostic.line = some (index + 1) ∧
    (segments source)[index]? = some segment ∧ front = ahead source index ∧
    line = dropReturn segment

def HasColumn (diagnostic : Diagnostic) (line : List Char) (column : Nat) : Prop :=
  diagnostic.column = some column ∧ 1 ≤ column ∧ column ≤ byteSize line

/-- What a diagnostic on a line points at. -/
inductive Lands (source : List Char) (diagnostic : Diagnostic) (front line : List Char) : Prop
  | whole : (∀ column, ¬ diagnostic.HasColumn line column) →
      diagnostic.Points source front line → Lands source diagnostic front line
  | char {skipped left : List Char} {c : Char} : line = skipped ++ c :: left →
      diagnostic.HasColumn line (byteSize skipped + 1) →
      diagnostic.Points source (front ++ skipped) [c] → Lands source diagnostic front line
  | inside {column : Nat} : diagnostic.HasColumn line column → ¬ IsBoundary (column - 1) line →
      diagnostic.span? source = some ⟨byteSize front + (column - 1), byteSize front + column⟩ →
      diagnostic.charSpan? source = none → Lands source diagnostic front line

theorem HasColumn.unique {other : Nat} (first : diagnostic.HasColumn line column)
    (second : diagnostic.HasColumn line other) : column = other :=
  Option.some.inj (first.1.symm.trans second.1)

theorem isSome_span?_iff : (diagnostic.span? source).isSome ↔
    ∃ number, diagnostic.line = some number ∧ 1 ≤ number ∧
      number ≤ (segments source).length := by
  cases numbered : diagnostic.line with
  | none => simp [span?, numbered]
  | some number =>
      cases number with
      | zero => simp [span?, numbered]
      | succ index =>
          cases found : (segments source)[index]? with
          | none =>
              have short := List.getElem?_eq_none_iff.mp found
              simp [span?, numbered, found]
              omega
          | some segment =>
              obtain ⟨within, -⟩ := List.getElem?_eq_some_iff.mp found
              rw [span?_of_segment found numbered]
              simp
              omega

theorem isSome_span?_of_charSpan? (placed : (diagnostic.charSpan? source).isSome) :
    (diagnostic.span? source).isSome := by
  by_contra missing
  rw [charSpan?, Option.not_isSome_iff_eq_none.mp missing] at placed
  cases placed

theorem exists_onLine (found : (diagnostic.span? source).isSome) :
    ∃ front line, diagnostic.OnLine source front line := by
  obtain ⟨number, numbered, positive, within⟩ := isSome_span?_iff.mp found
  obtain ⟨index, rfl⟩ := Nat.exists_eq_add_of_le' positive
  exact ⟨_, _, index, _, numbered, List.getElem?_eq_getElem within, rfl, rfl⟩

theorem OnLine.exists_after (onLine : diagnostic.OnLine source front line) :
    ∃ after, source = front ++ (line ++ after) := by
  obtain ⟨index, segment, numbered, found, rfl, rfl⟩ := onLine
  obtain ⟨after, split⟩ := isPrefix_of_segment found List.prefix_rfl
  exact ⟨after, by rw [← List.append_assoc, split]⟩

theorem OnLine.unique {otherFront otherLine : List Char}
    (first : diagnostic.OnLine source front line)
    (second : diagnostic.OnLine source otherFront otherLine) :
    front = otherFront ∧ line = otherLine := by
  obtain ⟨index, segment, numbered, found, rfl, rfl⟩ := first
  obtain ⟨other, otherSegment, otherNumbered, otherFound, rfl, rfl⟩ := second
  obtain rfl : index = other := by
    rw [numbered] at otherNumbered
    simpa using otherNumbered
  obtain rfl := Option.some.inj (found.symm.trans otherFound)
  exact ⟨rfl, rfl⟩

/-- Where no character starts in a line, none starts in the source. -/
theorem OnLine.charSpan?_eq_none (onLine : diagnostic.OnLine source front line)
    {position stop : Nat} (within : position ≤ byteSize line)
    (inside : ¬ IsBoundary position line)
    (span : diagnostic.span? source = some ⟨byteSize front + position, stop⟩) :
    diagnostic.charSpan? source = none := by
  obtain ⟨after, rfl⟩ := onLine.exists_after
  have unplaced : charOffset? (byteSize front + position) (front ++ (line ++ after)) = none := by
    rw [← Option.not_isSome_iff_eq_none, isSome_charOffset?_iff, isBoundary_append_left,
      isBoundary_append_right within]
    exact inside
  rw [charSpan?, span]
  simp only [Option.bind_eq_bind, Option.bind_some, unplaced, Option.bind_none]

theorem OnLine.lands (onLine : diagnostic.OnLine source front line) :
    diagnostic.Lands source front line := by
  have parts := onLine
  obtain ⟨index, segment, numbered, found, rfl, rfl⟩ := parts
  by_cases placed : ∃ column, diagnostic.HasColumn (dropReturn segment) column
  · obtain ⟨column, has⟩ := placed
    have here := has.1
    have positive := has.2.1
    have within := has.2.2
    cases rest : dropBytes? (column - 1) (dropReturn segment) with
    | none =>
        have inside : ¬ IsBoundary (column - 1) (dropReturn segment) := by
          rw [← isSome_dropBytes?_iff, rest]
          exact Bool.false_ne_true
        have span : diagnostic.span? source = some ⟨byteSize (ahead source index) + (column - 1),
            byteSize (ahead source index) + column⟩ := by
          rw [span?_of_segment found numbered, here, columnSpan, if_pos ⟨positive, within⟩, rest]
          simp only [Option.some.injEq, Span.mk.injEq, true_and]
          omega
        exact .inside has inside span (onLine.charSpan?_eq_none (by omega) inside span)
    | some left =>
        obtain ⟨skipped, split, size⟩ := dropBytes?_eq_some rest
        obtain rfl : column = byteSize skipped + 1 := by omega
        cases left with
        | nil =>
            -- the line would end before the column
            rw [← split, List.append_nil] at within
            omega
        | cons c left =>
            exact .char split.symm has (points_char found numbered split.symm here)
  · push Not at placed
    refine .whole placed (points_whole found numbered fun column here => ?_)
    have outside : ¬ (1 ≤ column ∧ column ≤ byteSize (dropReturn segment)) := fun within =>
      placed column ⟨here, within⟩
    omega

/-- The characters and the bytes that a diagnostic points at are the same text. -/
theorem Points.slices {piece : List Char} (points : diagnostic.Points source front piece)
    {span chars : Span} (inBytes : diagnostic.span? source = some span)
    (inChars : diagnostic.charSpan? source = some chars) :
    chars.slice source = piece ∧ span.slice (bytes source) = bytes piece := by
  obtain rfl := Option.some.inj (points.span.symm.trans inBytes)
  obtain rfl := Option.some.inj (points.charSpan.symm.trans inChars)
  obtain ⟨after, rfl⟩ := points.isPrefix
  rw [List.append_assoc]
  refine ⟨Span.slice_append front piece after, ?_⟩
  have encoded := Span.slice_append (bytes front) (bytes piece) (bytes after)
  rwa [← bytes_append, ← bytes_append, ← bytes_append, length_bytes, length_bytes] at encoded

section Landing

variable {span chars : Span}

theorem Lands.span_within (lands : diagnostic.Lands source front line)
    (inBytes : diagnostic.span? source = some span) :
    byteSize front ≤ span.start ∧ span.start ≤ span.stop ∧
      span.stop ≤ byteSize front + byteSize line ∧
      ((∀ column, ¬ diagnostic.HasColumn line column) →
        span = ⟨byteSize front, byteSize front + byteSize line⟩) := by
  cases lands with
  | whole outside points =>
      obtain rfl := Option.some.inj (points.span.symm.trans inBytes)
      simp
  | @char skipped left c split has points =>
      obtain rfl := Option.some.inj (points.span.symm.trans inBytes)
      exact ⟨by simp, by simp, by simp [split], fun outside => absurd has (outside _)⟩
  | inside has notBoundary place charSpan =>
      obtain rfl := Option.some.inj (place.symm.trans inBytes)
      have within := has.2.2
      exact ⟨by simp, by simp, by simpa using within, fun outside => absurd has (outside _)⟩

theorem Lands.isSome_charSpan?_iff (lands : diagnostic.Lands source front line) :
    (diagnostic.charSpan? source).isSome ↔
      ∀ column, diagnostic.HasColumn line column → IsBoundary (column - 1) line := by
  cases lands with
  | whole outside points =>
      rw [points.charSpan]
      exact iff_of_true rfl fun column has => absurd has (outside column)
  | @char skipped left c split has points =>
      rw [points.charSpan]
      refine iff_of_true rfl fun column other => ?_
      rw [other.unique has, split]
      exact ⟨skipped, List.prefix_append skipped (c :: left), by simp⟩
  | inside has notBoundary place charSpan =>
      rw [charSpan]
      exact iff_of_false Bool.false_ne_true fun boundary => notBoundary (boundary _ has)

theorem Lands.slices (lands : diagnostic.Lands source front line)
    (inBytes : diagnostic.span? source = some span)
    (inChars : diagnostic.charSpan? source = some chars) :
    bytes (chars.slice source) = span.slice (bytes source) ∧
      ∀ column, diagnostic.HasColumn line column →
        ∃ skipped c left, line = skipped ++ c :: left ∧ column = byteSize skipped + 1 ∧
          chars.slice source = [c] := by
  cases lands with
  | whole outside points =>
      obtain ⟨text, encoded⟩ := points.slices inBytes inChars
      exact ⟨by rw [text, encoded], fun column has => absurd has (outside column)⟩
  | @char skipped left c split has points =>
      obtain ⟨text, encoded⟩ := points.slices inBytes inChars
      exact ⟨by rw [text, encoded], fun column other =>
        ⟨skipped, c, left, split, other.unique has, text⟩⟩
  | inside has notBoundary place charSpan =>
      rw [charSpan] at inChars
      cases inChars

end Landing

/-- A diagnostic has a place in the bytes of a source exactly if the source has its line. The place
is within that line, and all of it if the column is not within it. It is a place among the
characters exactly if no column within the line is inside a character, and then both places hold
the same text. -/
theorem spans_sound (source : List Char) (diagnostic : Diagnostic) :
    ((diagnostic.span? source).isSome ↔
      ∃ number, diagnostic.line = some number ∧ 1 ≤ number ∧
        number ≤ (segments source).length) ∧
    (∀ span, diagnostic.span? source = some span →
      ∃ front line, diagnostic.OnLine source front line ∧
        byteSize front ≤ span.start ∧ span.start ≤ span.stop ∧
        span.stop ≤ byteSize front + byteSize line ∧
        ((∀ column, ¬ diagnostic.HasColumn line column) →
          span = ⟨byteSize front, byteSize front + byteSize line⟩)) ∧
    ((diagnostic.charSpan? source).isSome ↔
      (diagnostic.span? source).isSome ∧
        ∀ front line column, diagnostic.OnLine source front line →
          diagnostic.HasColumn line column → IsBoundary (column - 1) line) ∧
    ∀ chars, diagnostic.charSpan? source = some chars →
      ∃ span, diagnostic.span? source = some span ∧
        bytes (chars.slice source) = span.slice (bytes source) ∧
        ∀ front line column, diagnostic.OnLine source front line →
          diagnostic.HasColumn line column →
          ∃ skipped c left, line = skipped ++ c :: left ∧ column = byteSize skipped + 1 ∧
            chars.slice source = [c] := by
  refine ⟨isSome_span?_iff, ?within, ?boundary, ?text⟩
  case within =>
    intro span inBytes
    obtain ⟨front, line, onLine⟩ := exists_onLine (Option.isSome_of_eq_some inBytes)
    exact ⟨front, line, onLine, onLine.lands.span_within inBytes⟩
  case boundary =>
    constructor
    · intro inChars
      refine ⟨isSome_span?_of_charSpan? inChars, ?_⟩
      intro front line column onLine has
      exact onLine.lands.isSome_charSpan?_iff.mp inChars column has
    · rintro ⟨inBytes, boundary⟩
      obtain ⟨front, line, onLine⟩ := exists_onLine inBytes
      exact onLine.lands.isSome_charSpan?_iff.mpr fun column => boundary front line column onLine
  case text =>
    intro chars inChars
    have found := isSome_span?_of_charSpan? (Option.isSome_of_eq_some inChars)
    obtain ⟨front, line, onLine⟩ := exists_onLine found
    obtain ⟨span, inBytes⟩ := Option.isSome_iff_exists.mp found
    obtain ⟨same, single⟩ := onLine.lands.slices inBytes inChars
    refine ⟨span, inBytes, same, ?_⟩
    intro otherFront otherLine column other has
    obtain ⟨rfl, rfl⟩ := onLine.unique other
    exact single column has

end Diagnostic

end Wireframe
