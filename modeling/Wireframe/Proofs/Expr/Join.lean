import Wireframe.Expr
import Mathlib.Data.List.Basic

/-! Joining items into a group. Some of the items may be joined first, what is read off the items
in order is read off the whole, and from items in which nothing is left to merge comes a whole in
which nothing is. -/

namespace Wireframe

namespace Expr

def IsGroup (direction : Direction) (expression : Expr) : Prop :=
  ∃ children, expression = .group direction children

mutual
/-- Every group has two children or more, and none that is a group of its direction. -/
def Flat : Expr → Prop
  | .entity _ => True
  | .group direction children =>
      2 ≤ children.length ∧ (∀ child ∈ children, ¬ child.IsGroup direction) ∧
        Expr.FlatAll children
  | .container _ content => content.Flat

def FlatAll : List Expr → Prop
  | [] => True
  | item :: rest => item.Flat ∧ Expr.FlatAll rest
end

theorem flatAll_iff {items : List Expr} : Expr.FlatAll items ↔ ∀ item ∈ items, item.Flat := by
  induction items with
  | nil => simp [FlatAll]
  | cons item rest ih => simp [FlatAll, ih]

theorem flatAll_append {items later : List Expr} :
    Expr.FlatAll (items ++ later) ↔ Expr.FlatAll items ∧ Expr.FlatAll later := by
  simp [flatAll_iff, or_imp, forall_and]

variable {direction : Direction} {item : Expr} {items front back : List Expr}

/-! The two forms that a join has, and the two that an item contributes in. -/

theorem splice_group (direction : Direction) (children : List Expr) :
    splice direction (.group direction children) = children :=
  if_pos rfl

theorem splice_eq_singleton (different : ¬ item.IsGroup direction) :
    splice direction item = [item] := by
  cases item with
  | entity name => rfl
  | container name content => rfl
  | group inner children =>
      have other : inner ≠ direction := by
        rintro rfl
        exact different ⟨children, rfl⟩
      exact if_neg other

theorem join_of_two_le (two : 2 ≤ items.length) :
    join direction items = .group direction (items.flatMap (splice direction)) := by
  match items, two with
  | first :: second :: rest, _ => rfl

theorem eq_singleton_or_two_le (nonempty : items ≠ []) :
    (∃ item, items = [item]) ∨ 2 ≤ items.length := by
  match items, nonempty with
  | [item], _ => exact .inl ⟨item, rfl⟩
  | first :: second :: rest, _ => exact .inr (by simp)

/-! Joining some of the items first. -/

theorem splice_join (two : 2 ≤ items.length) :
    splice direction (join direction items) = items.flatMap (splice direction) := by
  rw [join_of_two_le two, splice_group]

/-- A group among the items gives way to its own items. -/
theorem join_append_join (nonempty : items ≠ []) :
    join direction (front ++ [join direction items] ++ back) =
      join direction (front ++ items ++ back) := by
  cases eq_singleton_or_two_le nonempty with
  | inl single =>
      obtain ⟨item, rfl⟩ := single
      rfl
  | inr two =>
      -- with nothing around it the inner join is a single item, and stays as it is
      by_cases alone : front = [] ∧ back = []
      · obtain ⟨rfl, rfl⟩ := alone
        simp
      · have others : front.length + back.length ≠ 0 := by simpa using alone
        have here : 2 ≤ (front ++ [join direction items] ++ back).length := by
          simp only [List.length_append, List.length_singleton]
          omega
        have there : 2 ≤ (front ++ items ++ back).length := by
          simp only [List.length_append]
          omega
        rw [join_of_two_le here, join_of_two_le there]
        simp only [List.flatMap_append, List.flatMap_singleton, splice_join two]

/-! Reading an expression through its groups. -/

section Read

variable {α : Type} {read : Expr → List α}
  (through : ∀ direction children, read (.group direction children) = children.flatMap read)

include through

theorem flatMap_splice (item : Expr) : (splice direction item).flatMap read = read item := by
  by_cases grouped : item.IsGroup direction
  · obtain ⟨children, rfl⟩ := grouped
    rw [splice_group, through]
  · rw [splice_eq_singleton grouped, List.flatMap_singleton]

theorem read_join (items : List Expr) : read (join direction items) = items.flatMap read := by
  have whole : read (.group direction (items.flatMap (splice direction))) = items.flatMap read := by
    rw [through, List.flatMap_assoc]
    exact List.flatMap_congr fun item _ => flatMap_splice through item
  by_cases empty : items = []
  · subst empty
    exact whole
  · cases eq_singleton_or_two_le empty with
    | inl single =>
        obtain ⟨item, rfl⟩ := single
        exact (List.flatMap_singleton read item).symm
    | inr two => rw [join_of_two_le two, whole]

end Read

theorem references_join (direction : Direction) (items : List Expr) :
    (join direction items).references = items.flatMap references :=
  read_join (fun _ => referencesAll_eq_flatMap) items

theorem topLevel_join (direction : Direction) (items : List Expr) :
    (join direction items).topLevel = items.flatMap topLevel :=
  read_join (fun _ => topLevelAll_eq_flatMap) items

/-! Joining flat items. -/

theorem Flat.splice_ne_nil (flat : item.Flat) : splice direction item ≠ [] := by
  by_cases grouped : item.IsGroup direction
  · obtain ⟨children, rfl⟩ := grouped
    have two : 2 ≤ children.length := flat.1
    rw [splice_group]
    rintro rfl
    exact absurd two (by decide)
  · rw [splice_eq_singleton grouped]
    exact List.cons_ne_nil item []

theorem Flat.of_mem_splice (flat : item.Flat) {part : Expr}
    (member : part ∈ splice direction item) : part.Flat ∧ ¬ part.IsGroup direction := by
  by_cases grouped : item.IsGroup direction
  · obtain ⟨children, rfl⟩ := grouped
    obtain ⟨-, different, inside⟩ := flat
    rw [splice_group] at member
    exact ⟨flatAll_iff.mp inside part member, different part member⟩
  · rw [splice_eq_singleton grouped, List.mem_singleton] at member
    subst member
    exact ⟨flat, grouped⟩

theorem length_le_flatMap_splice (flat : ∀ item ∈ items, item.Flat) :
    items.length ≤ (items.flatMap (splice direction)).length := by
  induction items with
  | nil => exact Nat.le_refl 0
  | cons item rest ih =>
      rw [List.forall_mem_cons] at flat
      have first : 0 < (splice direction item).length :=
        List.length_pos_iff.mpr flat.1.splice_ne_nil
      have later := ih flat.2
      rw [List.flatMap_cons, List.length_append, List.length_cons]
      omega

theorem flat_join (nonempty : items ≠ []) (flat : ∀ item ∈ items, item.Flat) :
    (join direction items).Flat := by
  cases eq_singleton_or_two_le nonempty with
  | inl single =>
      obtain ⟨item, rfl⟩ := single
      exact flat item (List.mem_singleton_self item)
  | inr two =>
      have parts : ∀ part ∈ items.flatMap (splice direction),
          part.Flat ∧ ¬ part.IsGroup direction := by
        intro part member
        obtain ⟨item, listed, contributed⟩ := List.mem_flatMap.mp member
        exact (flat item listed).of_mem_splice contributed
      -- no item contributes nothing, so the whole has no fewer parts than there are items
      rw [join_of_two_le two]
      refine ⟨Nat.le_trans two (length_le_flatMap_splice flat), ?_, flatAll_iff.mpr ?_⟩
      · exact fun part member => (parts part member).2
      · exact fun part member => (parts part member).1

/-- Items may be joined in any portions, the names of a join are those of its items in order, and
a join of flat items is flat. -/
theorem join_lawful (direction : Direction) :
    (∀ front items back, items ≠ [] →
      join direction (front ++ [join direction items] ++ back) =
        join direction (front ++ items ++ back)) ∧
    (∀ items, (join direction items).references = items.flatMap references ∧
      (join direction items).topLevel = items.flatMap topLevel) ∧
    ∀ items, items ≠ [] → (∀ item ∈ items, item.Flat) → (join direction items).Flat := by
  refine ⟨?_, ?_, ?_⟩
  · intro front items back nonempty
    exact join_append_join nonempty
  · intro items
    exact ⟨references_join direction items, topLevel_join direction items⟩
  · intro items nonempty flat
    exact flat_join nonempty flat

/-- In the row `a + (b + c) + (d / e)` the column alone stays a group. -/
theorem join_lawful_row :
    let items : List Expr := [.entity "b", .entity "c"]
    let column : Expr := .group .column [.entity "d", .entity "e"]
    let parts : List Expr := [.entity "a", join .row items, column]
    items ≠ [] ∧ join .row parts = join .row ([.entity "a"] ++ items ++ [column]) ∧
      join .row parts = .group .row [.entity "a", .entity "b", .entity "c", column] ∧
      parts ≠ [] ∧ (∀ part ∈ parts, part.Flat) ∧ (join .row parts).Flat := by
  intro items column parts
  obtain ⟨regroups, -, keeps⟩ := join_lawful .row
  have nonempty : items ≠ [] := List.cons_ne_nil _ _
  have some : parts ≠ [] := List.cons_ne_nil _ _
  have flat : ∀ part ∈ parts, part.Flat := by
    simp [parts, items, column, join, splice, Flat, FlatAll, IsGroup]
  exact ⟨nonempty, regroups [.entity "a"] items [column] nonempty, rfl, some, flat,
    keeps parts some flat⟩

end Expr

end Wireframe
