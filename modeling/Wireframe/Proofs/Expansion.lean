import Wireframe.Expansion

/-! What expansion does with each kind of expression, one equation for each case, and the
calls by which a session is asked for layouts. -/

namespace Wireframe

namespace Registry

variable {registry : Registry} {path : List String} {nested : Bool} {name : String}
  {template : Template} {content : Expr}

theorem contains_iff_get? : registry.contains name = true ↔ (registry.get? name).isSome := by
  simp [contains, get?]

theorem contains_of_get? (found : registry.get? name = some template) :
    registry.contains name = true := by
  simp [contains_iff_get?, found]

theorem not_contains_of_get? (missing : registry.get? name = none) :
    registry.contains name = false := by
  rw [← Bool.not_eq_true, contains_iff_get?, missing]
  simp

theorem expand_entity_unknown (missing : registry.get? name = none) :
    registry.expand path nested (.entity name) = .leaf ⟨(), name, .empty, true⟩ := by
  rw [expand]
  split
  · rfl
  · next found => simp [missing] at found

theorem expand_entity_cut (found : registry.get? name = some template)
    (cut : nested = true ∧ name ∈ path) :
    registry.expand path nested (.entity name) = .leaf ⟨(), name, template.styles, true⟩ := by
  rw [expand]
  split
  · next missing => simp [found] at missing
  · next other found' =>
      cases found.symm.trans found'
      rw [dif_pos cut]

theorem expand_entity (found : registry.get? name = some template)
    (uncut : ¬ (nested = true ∧ name ∈ path)) :
    registry.expand path nested (.entity name) =
      (⟨⟨(), name, template.styles, false⟩,
        template.content.map (registry.expand (name :: path) true)⟩ : Block Unit).layout := by
  rw [expand]
  split
  · next missing => simp [found] at missing
  · next other found' =>
      cases found.symm.trans found'
      rw [dif_neg uncut]
      cases template.content <;> rfl

theorem expand_container_unknown (missing : registry.get? name = none) :
    registry.expand path nested (.container name content) =
      .leaf ⟨(), name, .empty, true⟩ := by
  rw [expand, missing]

theorem expand_container (found : registry.get? name = some template) :
    registry.expand path nested (.container name content) =
      .box ⟨(), name, template.styles, false⟩
        (registry.expand (name :: path) true content) := by
  rw [expand, found]

theorem expand_container_nested (nested other : Bool) :
    registry.expand path nested (.container name content) =
      registry.expand path other (.container name content) := by
  rw [expand, expand]

theorem expandAll_eq_map (items : List Expr) :
    registry.expandAll path nested items = items.map (registry.expand path nested) := by
  induction items with
  | nil => rw [expandAll, List.map_nil]
  | cons item rest ih => rw [expandAll, ih, List.map_cons]

theorem expand_group (direction : Direction) (children : List Expr) :
    registry.expand path nested (.group direction children) =
      .group direction (children.map (registry.expand path nested)) := by
  rw [expand, expandAll_eq_map]

end Registry

/-- What a session may be asked for: the layout of an expression, or an entity with
explicit content or that of its template. -/
inductive Call
  | layout (expression : Expr) (nested : Bool)
  | entity (name : String) (explicit : Option Expr) (nested : Bool)

namespace Call

def source : Call → Expr
  | .layout expression _ => expression
  | .entity name explicit _ => explicit.elim (.entity name) (.container name)

def nested : Call → Bool
  | .layout _ nested => nested
  | .entity _ _ nested => nested

def unroll (registry : Registry) : Call → Layout Unit
  | .layout expression nested => registry.expand [] nested expression
  | .entity name explicit nested => registry.instantiate name explicit nested

theorem unroll_eq (registry : Registry) (call : Call) :
    call.unroll registry = registry.expand [] call.nested call.source := by
  cases call <;> rfl

end Call

end Wireframe
