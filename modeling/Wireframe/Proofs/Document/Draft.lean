import Wireframe.Proofs.Document.Coverage

/-! A document while its lines are read: each line adds to what those before it have left. -/

namespace Wireframe

theorem Registry.applyAll_append (registry : Registry) (first later : List Registry.Edit) :
    registry.applyAll (first ++ later) = (registry.applyAll first).applyAll later :=
  List.foldl_append

namespace Contribution

theorem append_empty (part : Contribution) : part ++ empty = part := by
  rw [show part ++ empty = part.append empty from rfl]
  simp [append, empty]

theorem empty_append (part : Contribution) : empty ++ part = part :=
  rfl

theorem join_append (parts later : List Contribution) :
    join (parts ++ later) = join parts ++ join later := by
  rw [show join parts ++ join later = (join parts).append (join later) from rfl]
  simp [join, append]

theorem join_cons (part : Contribution) (parts : List Contribution) :
    join (part :: parts) = part ++ join parts := by
  have single : join [part] = part := by simp [join]
  rw [← List.singleton_append, join_append, single]

/-- What lines with their numbers add. -/
def ofLines (resolve : Resolver) (numbered : List (List Char × Nat)) : Contribution :=
  join (numbered.map fun (source, number) => ofLine resolve number source)

theorem ofLines_append (resolve : Resolver) (numbered later : List (List Char × Nat)) :
    ofLines resolve (numbered ++ later) = ofLines resolve numbered ++ ofLines resolve later := by
  rw [ofLines, List.map_append, join_append]
  rfl

theorem ofLines_cons (resolve : Resolver) (source : List Char) (number : Nat)
    (numbered : List (List Char × Nat)) :
    ofLines resolve ((source, number) :: numbered) =
      ofLine resolve number source ++ ofLines resolve numbered := by
  rw [ofLines, List.map_cons, join_cons]
  rfl

end Contribution

structure Draft where
  statements : List Statement
  templates : Registry
  diagnostics : List Diagnostic

namespace Draft

def empty : Draft :=
  ⟨[], .empty, []⟩

def add (draft : Draft) (part : Contribution) : Draft :=
  ⟨draft.statements ++ part.statements, draft.templates.applyAll part.edits,
    draft.diagnostics ++ part.diagnostics⟩

def read (resolve : Resolver) (draft : Draft) (number : Nat) (source : List Char) : Draft :=
  draft.add (.ofLine resolve number source)

/-- Reads lines in turn, each with its number. -/
def readAll (resolve : Resolver) (draft : Draft) (numbered : List (List Char × Nat)) : Draft :=
  numbered.foldl (fun draft (source, number) => draft.read resolve number source) draft

theorem add_append (draft : Draft) (part later : Contribution) :
    draft.add (part ++ later) = (draft.add part).add later := by
  rw [show part ++ later = part.append later from rfl]
  simp [add, Contribution.append, Registry.applyAll_append]

theorem readAll_eq_add (resolve : Resolver) (draft : Draft)
    (numbered : List (List Char × Nat)) :
    draft.readAll resolve numbered = draft.add (.ofLines resolve numbered) := by
  induction numbered generalizing draft with
  | nil => simp [readAll, add, Contribution.ofLines, Contribution.join, Registry.applyAll]
  | cons first rest ih =>
      rw [Contribution.ofLines_cons, add_append]
      exact ih (draft.read resolve first.2 first.1)

/-- A document is what reading all lines of its source leaves. -/
theorem parse_eq_readAll (resolve : Resolver) (source : String) :
    Document.parse resolve source =
      let draft := empty.readAll resolve (Document.numbered source)
      ⟨source, draft.statements, draft.templates, draft.diagnostics⟩ := by
  rw [readAll_eq_add]
  rfl

end Draft

end Wireframe
