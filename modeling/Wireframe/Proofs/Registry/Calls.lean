import Wireframe.Proofs.Document.Names
import Wireframe.Proofs.Document.Rejection

/-! What a registry tells of a name, and how edits and whole expressions change it. Edits only add
names at the end, the first edit of a name gives its line, and an expression leaves all styles as
they are and gives a content to nothing but its containers. -/

namespace Wireframe

namespace Registry

namespace Edit

def line : Edit → Nat
  | .sight _ line => line
  | .style _ line _ => line
  | .content _ line _ => line

/-- The edits that an expression with these containers may make. -/
inductive Registers (line : Nat) (contents : List (String × Expr)) : Edit → Prop
  | sight (name : String) : Registers line contents (.sight name line)
  | content {name : String} {content : Expr} : (name, content) ∈ contents →
      Registers line contents (.content name line content)

theorem Registers.mono {line : Nat} {contents later : List (String × Expr)} {edit : Edit}
    (registers : edit.Registers line contents) (within : contents ⊆ later) :
    edit.Registers line later := by
  cases registers with
  | sight name => exact .sight name
  | content member => exact .content (within member)

theorem Registers.line_eq {line : Nat} {contents : List (String × Expr)} {edit : Edit}
    (registers : edit.Registers line contents) : edit.line = line := by
  cases registers <;> rfl

end Edit

end Registry

namespace Expr

mutual
theorem map_name_edits (line : Nat) : (expression : Expr) →
    (expression.edits line).map Registry.Edit.name = expression.references
  | .entity _ => rfl
  | .group _ children => map_name_editsAll line children
  | .container name content => by
      rw [edits, List.map_cons, map_name_edits line content]
      rfl

theorem map_name_editsAll (line : Nat) : (items : List Expr) →
    (editsAll line items).map Registry.Edit.name = referencesAll items
  | [] => rfl
  | item :: rest => by
      rw [editsAll, List.map_append, map_name_edits line item, map_name_editsAll line rest]
      rfl
end

mutual
theorem registers_of_mem_edits {line : Nat} {edit : Registry.Edit} : (expression : Expr) →
    edit ∈ expression.edits line → edit.Registers line expression.contents
  | .entity name, member => by
      obtain rfl := List.mem_singleton.mp member
      exact .sight name
  | .group _ children, member => registers_of_mem_editsAll children member
  | .container name content, member => by
      cases List.mem_cons.mp member with
      | inl first => exact first ▸ .content List.mem_cons_self
      | inr later => exact (registers_of_mem_edits content later).mono (List.subset_cons_self _ _)

theorem registers_of_mem_editsAll {line : Nat} {edit : Registry.Edit} : (items : List Expr) →
    edit ∈ editsAll line items → edit.Registers line (contentsAll items)
  | [], member => by cases member
  | item :: rest, member => by
      cases List.mem_append.mp member with
      | inl first => exact (registers_of_mem_edits item first).mono (List.subset_append_left _ _)
      | inr later =>
          exact (registers_of_mem_editsAll rest later).mono (List.subset_append_right _ _)
end

end Expr

namespace Registry

variable {registry : Registry} {name : String}

/-! What a registry tells of a name, and what one edit changes in it. -/

/-- The styles that a name has in the registry. -/
def stylesOf (registry : Registry) (name : String) : StyleMap :=
  (registry.get? name).elim .empty Template.styles

/-- The line on which a name was first seen. -/
def firstLineOf? (registry : Registry) (name : String) : Option Nat :=
  (registry.get? name).map Template.firstLine

theorem get?_eq_some_iff (distinct : registry.names.Nodup) {template : Template} :
    registry.get? name = some template ↔ template ∈ registry.templates ∧ template.name = name := by
  constructor
  · intro found
    exact ⟨List.mem_of_find?_eq_some found, by simpa using List.find?_some found⟩
  · rintro ⟨member, rfl⟩
    obtain ⟨other, found⟩ := Option.isSome_iff_exists.mp
      (show (registry.get? template.name).isSome from
        List.find?_isSome.mpr ⟨template, member, by simp⟩)
    have sameName : other.name = template.name := by simpa using List.find?_some found
    rw [found, List.inj_on_of_nodup_map distinct (List.mem_of_find?_eq_some found) member sameName]

theorem stylesOf_ensure (registry : Registry) (name : String) (line : Nat) (other : String) :
    (registry.ensure name line).stylesOf other = registry.stylesOf other := by
  unfold stylesOf
  rw [get?_ensure]
  cases registry.get? other with
  | some template => rfl
  | none => split <;> rfl

theorem stylesOf_setContent (registry : Registry) (name : String) (content : Expr)
    (other : String) :
    (registry.modify name (Template.setContent content)).stylesOf other =
      registry.stylesOf other := by
  unfold stylesOf
  rw [get?_modify registry name (Template.setContent content) fun _ => rfl]
  cases registry.get? other with
  | none => rfl
  | some template =>
      rw [Option.map_some, Option.elim_some, Option.elim_some]
      split <;> rfl

theorem contentOf?_setContent (registry : Registry) (content : Expr) {other : String}
    (apart : name ≠ other) :
    (registry.modify name (Template.setContent content)).contentOf? other =
      registry.contentOf? other := by
  unfold contentOf?
  rw [get?_modify registry name (Template.setContent content) fun _ => rfl]
  cases found : registry.get? other with
  | none => rfl
  | some template =>
      have named : template.name = other := by simpa using List.find?_some found
      rw [Option.map_some, Option.bind_some, Option.bind_some, if_neg (named ▸ apart.symm)]

theorem firstLineOf?_ensure (registry : Registry) (name : String) (line : Nat) (other : String) :
    (registry.ensure name line).firstLineOf? other =
      (registry.firstLineOf? other).or (if name = other then some line else none) := by
  unfold firstLineOf?
  rw [get?_ensure, Option.map_or]
  split <;> rfl

theorem firstLineOf?_modify (registry : Registry) (name : String) (change : Template → Template)
    (keepsName : ∀ template, (change template).name = template.name)
    (keepsLine : ∀ template, (change template).firstLine = template.firstLine) (other : String) :
    (registry.modify name change).firstLineOf? other = registry.firstLineOf? other := by
  unfold firstLineOf?
  rw [get?_modify registry name change keepsName, Option.map_map]
  congr 1
  funext template
  rw [Function.comp_apply]
  split
  · exact keepsLine template
  · rfl

theorem firstLineOf?_apply (registry : Registry) (edit : Edit) (name : String) :
    (registry.apply edit).firstLineOf? name =
      (registry.firstLineOf? name).or (if edit.name = name then some edit.line else none) := by
  cases edit with
  | sight other line => exact firstLineOf?_ensure registry other line name
  | style other line declaration =>
      have kept := firstLineOf?_modify (registry.ensure other line) other (.applyStyle declaration)
        (fun _ => rfl) (fun _ => rfl) name
      exact kept.trans (firstLineOf?_ensure registry other line name)
  | content other line content =>
      have kept := firstLineOf?_modify (registry.ensure other line) other (.setContent content)
        (fun _ => rfl) (fun _ => rfl) name
      exact kept.trans (firstLineOf?_ensure registry other line name)

/-! Edits in turn. -/

theorem firstLineOf?_applyAll (registry : Registry) (edits : List Edit) (name : String) :
    (registry.applyAll edits).firstLineOf? name =
      (registry.firstLineOf? name).or ((edits.find? (·.name = name)).map Edit.line) := by
  induction edits generalizing registry with
  | nil => exact Option.or_none.symm
  | cons edit rest ih =>
      rw [applyAll, List.foldl_cons, ← applyAll, ih, firstLineOf?_apply, Option.or_assoc,
        List.find?_cons]
      by_cases named : edit.name = name <;> simp [named]

/-- Edits add the names that are new, in the order in which they first occur. -/
theorem names_applyAll (registry : Registry) (edits : List Edit) :
    (registry.applyAll edits).names = registry.names ++
      ((edits.map Edit.name).filter (· ∉ registry.names)).eraseDups := by
  induction edits generalizing registry with
  | nil => exact (List.append_nil _).symm
  | cons edit rest ih =>
      rw [applyAll, List.foldl_cons, ← applyAll, ih, names_apply, List.map_cons]
      by_cases known : edit.name ∈ registry.names
      · simp [known]
      · simp only [known, if_false, List.append_assoc, List.filter_cons, not_false_eq_true,
          decide_true, if_true, List.eraseDups_cons, List.singleton_append, List.filter_filter]
        congr 4
        funext other
        rw [Bool.and_comm, beq_eq_decide]
        simp

section Registering

variable {line : Nat} {contents : List (String × Expr)} {edits : List Edit}

theorem stylesOf_applyAll (registers : ∀ edit ∈ edits, edit.Registers line contents)
    (name : String) : (registry.applyAll edits).stylesOf name = registry.stylesOf name := by
  induction edits generalizing registry with
  | nil => rfl
  | cons edit rest ih =>
      obtain ⟨here, later⟩ := List.forall_mem_cons.mp registers
      rw [applyAll, List.foldl_cons, ← applyAll, ih later]
      cases here with
      | sight other => exact stylesOf_ensure registry other line name
      | @content other content _ =>
          exact (stylesOf_setContent _ other content name).trans
            (stylesOf_ensure registry other line name)

theorem contentOf?_applyAll (registers : ∀ edit ∈ edits, edit.Registers line contents)
    (absent : name ∉ contents.map Prod.fst) :
    (registry.applyAll edits).contentOf? name = registry.contentOf? name := by
  induction edits generalizing registry with
  | nil => rfl
  | cons edit rest ih =>
      obtain ⟨here, later⟩ := List.forall_mem_cons.mp registers
      rw [applyAll, List.foldl_cons, ← applyAll, ih later]
      cases here with
      | sight other => exact contentOf?_ensure registry other line name
      | @content other content member =>
          have apart : other ≠ name := by
            rintro rfl
            exact absent (List.mem_map_of_mem member)
          exact (contentOf?_setContent _ content apart).trans
            (contentOf?_ensure registry other line name)

end Registering

/-! Whole expressions. -/

theorem names_register (registry : Registry) (expression : Expr) (line : Nat) :
    (registry.register expression line).names = registry.names ++
      (expression.references.filter (· ∉ registry.names)).eraseDups := by
  rw [register, names_applyAll, Expr.map_name_edits]

theorem stylesOf_register (registry : Registry) (expression : Expr) (line : Nat) (name : String) :
    (registry.register expression line).stylesOf name = registry.stylesOf name :=
  stylesOf_applyAll (fun _ => Expr.registers_of_mem_edits expression) name

theorem contentOf?_register (registry : Registry) {expression : Expr} (line : Nat)
    (absent : name ∉ expression.contents.map Prod.fst) :
    (registry.register expression line).contentOf? name = registry.contentOf? name :=
  contentOf?_applyAll (fun _ => Expr.registers_of_mem_edits expression) absent

/-- A change that is asked of a registry. -/
inductive Call
  | apply (edit : Edit)
  | register (expression : Expr) (line : Nat)

namespace Call

def line : Call → Nat
  | .apply edit => edit.line
  | .register _ line => line

/-- The names that a call mentions. -/
def names : Call → List String
  | .apply edit => [edit.name]
  | .register expression _ => expression.references

def edits : Call → List Edit
  | .apply edit => [edit]
  | .register expression line => expression.edits line

theorem map_name_edits (call : Call) : call.edits.map Edit.name = call.names := by
  cases call with
  | apply edit => rfl
  | register expression line => exact expression.map_name_edits line

theorem line_of_mem_edits {call : Call} {edit : Edit} (member : edit ∈ call.edits) :
    edit.line = call.line := by
  cases call with
  | apply other => rw [List.mem_singleton.mp member, line]
  | register expression line => exact (expression.registers_of_mem_edits member).line_eq

end Call

def call (registry : Registry) : Call → Registry
  | .apply edit => registry.apply edit
  | .register expression line => registry.register expression line

def callAll (registry : Registry) (calls : List Call) : Registry :=
  calls.foldl call registry

theorem call_eq (registry : Registry) (call : Call) :
    registry.call call = registry.applyAll call.edits := by
  cases call <;> rfl

theorem callAll_eq (registry : Registry) (calls : List Call) :
    registry.callAll calls = registry.applyAll (calls.flatMap Call.edits) := by
  induction calls generalizing registry with
  | nil => rfl
  | cons call rest ih =>
      rw [callAll, List.foldl_cons, ← callAll, ih, call_eq, List.flatMap_cons, applyAll_append]

/-- The first edit of a name is made by the first call that mentions it. -/
theorem find?_edits (calls : List Call) (name : String) :
    ((calls.flatMap Call.edits).find? (·.name = name)).map Edit.line =
      (calls.find? (name ∈ ·.names)).map Call.line := by
  induction calls with
  | nil => rfl
  | cons call rest ih =>
      rw [List.flatMap_cons, List.find?_append, Option.map_or, ih, List.find?_cons,
        ← call.map_name_edits]
      cases found : call.edits.find? (·.name = name) with
      | none =>
          have absent : name ∉ call.edits.map Edit.name := by simpa using found
          simp [absent]
      | some edit =>
          have member := List.mem_of_find?_eq_some found
          have named : edit.name = name := by simpa using List.find?_some found
          have mentioned : name ∈ call.edits.map Edit.name := named ▸ List.mem_map_of_mem member
          simp [mentioned, Call.line_of_mem_edits member]

end Registry

end Wireframe
