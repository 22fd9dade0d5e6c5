import Mathlib.Data.List.Basic

/-! Replacing a character by a text throughout a string acts on every character for itself. So
several replacements made one after the other are a single pass over the characters, as long as
none of them finds its character in a text that an earlier one has put in. -/

namespace Wireframe.Text

open String.Slice.Pattern

theorem flatMap_eq_self {change : Char → List Char} {text : List Char}
    (kept : ∀ c ∈ text, change c = [c]) : text.flatMap change = text := by
  rw [List.flatMap_congr kept, List.flatMap_singleton']

/-! Characters and the texts that are put for them. -/

/-- What one character becomes when it is looked up in the table. -/
def passed (table : List (Char × String)) (c : Char) : List Char :=
  ((table.lookup c).map String.toList).getD [c]

section Table

variable {table : List (Char × String)}

theorem passed_cons_self (mark : Char) (entity : String) :
    passed ((mark, entity) :: table) mark = entity.toList := by
  rw [passed, List.lookup_cons_self]
  rfl

theorem passed_cons_of_ne {c mark : Char} (different : c ≠ mark) (entity : String) :
    passed ((mark, entity) :: table) c = passed table c := by
  rw [passed, List.lookup_cons, beq_eq_false_iff_ne.mpr different]
  rfl

theorem passed_eq_self {c : Char} (foreign : ∀ entry ∈ table, entry.1 ≠ c) :
    passed table c = [c] := by
  induction table with
  | nil => rfl
  | cons entry rest ih =>
      rw [List.forall_mem_cons] at foreign
      rw [passed_cons_of_ne foreign.1.symm, ih foreign.2]

theorem flatMap_passed_eq_self {text : List Char}
    (foreign : ∀ entry ∈ table, entry.1 ∉ text) : text.flatMap (passed table) = text := by
  apply flatMap_eq_self
  intro c member
  apply passed_eq_self
  intro entry listed same
  exact foreign entry listed (same ▸ member)

/-- The first replacement and a pass with the others are a pass with all of them. -/
theorem flatMap_passed_singleton {mark : Char} {entity : String}
    (settled : ∀ later ∈ table, later.1 ∉ entity.toList) (c : Char) :
    (passed [(mark, entity)] c).flatMap (passed table) = passed ((mark, entity) :: table) c := by
  by_cases same : c = mark
  · subst same
    rw [passed_cons_self, passed_cons_self, flatMap_passed_eq_self settled]
  · rw [passed_cons_of_ne same, passed_cons_of_ne same]
    exact List.flatMap_singleton (passed table) c

end Table

/-! One replacement, step by step of the search for its mark. -/

section Search

variable {mark : Char} {slice : String.Slice}

/-- What stands in the new text for a step of the search. -/
def written (entity : String) : SearchStep slice → String
  | .matched _ _ => entity
  | .rejected start stop => (slice.slice! start stop).copy

theorem notMem_slice {start stop : slice.Pos} (ordered : start ≤ stop)
    (unmatched : ∀ place, start ≤ place → place < stop → ¬ Model.MatchesAt mark place) :
    mark ∉ (slice.slice start stop ordered).copy.toList := by
  intro member
  obtain ⟨place, notEnd, found⟩ := String.Slice.mem_toList_copy_iff_exists_get.mp member
  rw [String.Slice.Pos.get_eq_get_ofSlice] at found
  have inside : String.Slice.Pos.ofSlice place < stop := by
    have before := (String.Slice.Pos.lt_endPos_iff place).mpr notEnd
    rwa [← String.Slice.Pos.ofSlice_lt_ofSlice_iff, String.Slice.Pos.ofSlice_endPos] at before
  exact unmatched _ String.Slice.Pos.le_ofSlice inside (Model.Char.matchesAt_iff.mpr ⟨_, found⟩)

theorem flatMap_written {place : slice.Pos} {steps : List (SearchStep slice)}
    (valid : Model.IsValidSearchFrom mark place steps) {front back : String}
    (splits : place.Splits front back) (entity : String) :
    steps.flatMap (fun step => (written entity step).toList) =
      back.toList.flatMap (passed [(mark, entity)]) := by
  induction valid generalizing front back with
  | endPos =>
      rw [splits.eq_endPos_iff.mp rfl]
      rfl
  | matched longest _ ih =>
      obtain ⟨notEnd, rfl, found⟩ := Model.Char.isLongestMatchAt_iff.mp longest
      obtain ⟨later, rfl⟩ := splits.exists_eq_singleton_append notEnd
      rw [List.flatMap_cons, ih splits.next, found, String.toList_append, String.toList_singleton,
        List.flatMap_append, List.flatMap_singleton, passed_cons_self, written]
  | @mismatched _ start stop before unmatched _ ih =>
      have ordered := Std.le_of_lt before
      obtain ⟨skipped, -, begun, rfl⟩ := (splits.lt_iff_exists_eq_append stop.splits).mp before
      obtain ⟨_, copied⟩ :=
        String.Slice.copy_slice_eq_iff_splits.mpr ⟨_, _, splits, begun ▸ stop.splits⟩
      have absent : mark ∉ skipped.toList := copied ▸ notMem_slice ordered unmatched
      have kept : skipped.toList.flatMap (passed [(mark, entity)]) = skipped.toList :=
        flatMap_passed_eq_self (List.forall_mem_singleton.mpr absent)
      have same : written entity (.rejected start stop) = skipped := by
        rw [written, ← String.Slice.slice_eq_slice! (h := ordered), copied]
      rw [List.flatMap_cons, ih stop.splits, same, String.toList_append, List.flatMap_append, kept]

theorem toList_foldl_append (piece : α → String) (items : List α) (sofar : String) :
    (items.foldl (fun sofar item => sofar ++ piece item) sofar).toList =
      sofar.toList ++ items.flatMap fun item => (piece item).toList := by
  induction items generalizing sofar with
  | nil => simp
  | cons item rest ih => simp [ih]

theorem toList_replace (mark : Char) (entity text : String) :
    (text.replace mark entity).toList = text.toList.flatMap (passed [(mark, entity)]) := by
  have gathered : text.replace mark entity =
      (ToForwardSearcher.toSearcher mark text.toSlice).toList.foldl
        (fun sofar step => sofar ++ written entity step) "" := by
    rw [String.replace, String.Slice.replace, ← Std.Iter.foldl_toList]
    congr
    funext sofar step
    cases step with
    | matched start stop => exact congrArg (sofar ++ ·) String.copy_toSlice
    | rejected start stop => rfl
  have valid : Model.IsValidSearchFrom mark text.toSlice.startPos
      (ToForwardSearcher.toSearcher mark text.toSlice).toList :=
    Model.LawfulToForwardSearcherModel.isValidSearchFrom_toList _
  rw [gathered, toList_foldl_append, flatMap_written valid (String.Slice.splits_startPos _)]
  simp

end Search

/-! Several replacements, one after the other. -/

/-- Makes the replacements of a table in the order in which they stand there. -/
def replaceInTurn (table : List (Char × String)) (text : String) : String :=
  table.foldl (fun text entry => text.replace entry.1 entry.2) text

/-- No text of the table has a mark that is replaced later. -/
def Settled (table : List (Char × String)) : Prop :=
  table.Pairwise fun earlier later => later.1 ∉ earlier.2.toList

instance (table : List (Char × String)) : Decidable (Settled table) :=
  inferInstanceAs (Decidable (List.Pairwise _ table))

theorem toList_replaceInTurn {table : List (Char × String)} (settled : Settled table)
    (text : String) : (replaceInTurn table text).toList = text.toList.flatMap (passed table) := by
  induction table generalizing text with
  | nil => exact (flatMap_passed_eq_self (List.forall_mem_nil _)).symm
  | cons entry rest ih =>
      obtain ⟨first, others⟩ := List.pairwise_cons.mp settled
      calc (replaceInTurn (entry :: rest) text).toList
        _ = (replaceInTurn rest (text.replace entry.1 entry.2)).toList := rfl
        _ = (text.replace entry.1 entry.2).toList.flatMap (passed rest) := ih others _
        _ = (text.toList.flatMap (passed [entry])).flatMap (passed rest) := by rw [toList_replace]
        _ = text.toList.flatMap fun c => (passed [entry] c).flatMap (passed rest) :=
            List.flatMap_assoc
        _ = text.toList.flatMap (passed (entry :: rest)) :=
            List.flatMap_congr fun c _ => flatMap_passed_singleton first c

end Wireframe.Text
