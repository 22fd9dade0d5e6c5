import Wireframe.Diagnostic
import Wireframe.Document
import Wireframe.Layout

/-! Expansion unrolls expressions into layouts of template instances. The path holds the
names that are being unrolled; inside a template's content a bare reference to one of
them ends there, so every expansion is finite. -/

namespace Wireframe

namespace Registry

/-- The number of templates whose names are not on the path. -/
def remaining (registry : Registry) (path : List String) : Nat :=
  (registry.names.filter fun name => name ∉ path).length

theorem remaining_cons_le (registry : Registry) (name : String) (path : List String) :
    registry.remaining (name :: path) ≤ registry.remaining path := by
  simp only [remaining, ← List.countP_eq_length_filter]
  exact List.countP_mono_left fun other _ => by simp

theorem remaining_cons_lt {registry : Registry} {name : String} {path : List String}
    (known : name ∈ registry.names) (off : name ∉ path) :
    registry.remaining (name :: path) < registry.remaining path := by
  simp only [remaining]
  generalize registry.names = names at known ⊢
  induction names with
  | nil => cases known
  | cons first rest ih =>
      have mono : (rest.filter fun other => other ∉ name :: path).length ≤
          (rest.filter fun other => other ∉ path).length := by
        simp only [← List.countP_eq_length_filter]
        exact List.countP_mono_left fun other _ => by simp
      by_cases same : first = name
      · subst same
        simpa [off] using Nat.lt_succ_of_le mono
      · have later := ih ((List.mem_cons.mp known).resolve_left (Ne.symm same))
        by_cases on : first ∈ path
        · simpa [on] using later
        · simpa [on, same] using later

theorem mem_names_of_get? {registry : Registry} {name : String} {template : Template}
    (found : registry.get? name = some template) : name ∈ registry.names := by
  have member := List.mem_of_find?_eq_some found
  have named := List.find?_some found
  exact List.mem_map.mpr ⟨template, member, by simpa using named⟩

mutual
/-- Unrolls an expression. It is `nested` inside a template's content. -/
def expand (registry : Registry) (path : List String) (nested : Bool) :
    Expr → Layout Unit
  | .entity name =>
      match _found : registry.get? name with
      | none => .leaf ⟨(), name, .empty, true⟩
      | some template =>
          if _on : nested ∧ name ∈ path then .leaf ⟨(), name, template.styles, true⟩
          else
            match template.content with
            | none => .leaf ⟨(), name, template.styles, false⟩
            | some content =>
                .box ⟨(), name, template.styles, false⟩
                  (registry.expand (name :: path) true content)
  | .group direction children => .group direction (registry.expandAll path nested children)
  | .container name content =>
      match registry.get? name with
      | none => .leaf ⟨(), name, .empty, true⟩
      | some template =>
          .box ⟨(), name, template.styles, false⟩
            (registry.expand (name :: path) true content)
termination_by expression => ((!nested).toNat, registry.remaining path, sizeOf expression)
decreasing_by
  · cases nested with
    | false => exact Prod.Lex.left _ _ (by decide)
    | true =>
        refine Prod.Lex.right _ (Prod.Lex.left _ _ ?_)
        exact remaining_cons_lt (mem_names_of_get? _found) fun on => _on ⟨rfl, on⟩
  · exact Prod.Lex.right _ (Prod.Lex.right _ (by simp only [Expr.group.sizeOf_spec]; omega))
  · cases nested with
    | false => exact Prod.Lex.left _ _ (by decide)
    | true =>
        refine Prod.Lex.right _ ?_
        rcases Nat.lt_or_eq_of_le (remaining_cons_le registry name path) with less | same
        · exact Prod.Lex.left _ _ less
        · rw [same]
          exact Prod.Lex.right _ (by simp only [Expr.container.sizeOf_spec]; omega)

def expandAll (registry : Registry) (path : List String) (nested : Bool) :
    List Expr → List (Layout Unit)
  | [] => []
  | item :: rest =>
      registry.expand path nested item :: registry.expandAll path nested rest
termination_by items => ((!nested).toNat, registry.remaining path, sizeOf items)
decreasing_by
  all_goals exact Prod.Lex.right _ (Prod.Lex.right _ (by simp only [List.cons.sizeOf_spec]; omega))
end

/-- Unrolls one entity at the top, with the explicit content, if there is one, instead
of its template's. -/
def instantiate (registry : Registry) (name : String) (explicit : Option Expr)
    (nested : Bool) : Layout Unit :=
  registry.expand [] nested (explicit.elim (.entity name) (.container name))

/-- An error for every node whose name has no template. -/
def unknownTemplates (registry : Registry) (layout : Layout ι) : List Diagnostic :=
  (layout.nodes.filter fun node => !registry.contains node.template).map
    fun node => .unknownTemplate node.template

end Registry

/-- A run of expansions, whose nodes are numbered without a gap. -/
structure Session where
  rank : Nat
  diagnostics : List Diagnostic

namespace Session

def start : Session :=
  ⟨1, []⟩

/-- Numbers a layout after all that came before. -/
def place (session : Session) (registry : Registry) (layout : Layout Unit) :
    Layout String × Session :=
  (layout.number session.rank,
    ⟨session.rank + layout.size, session.diagnostics ++ registry.unknownTemplates layout⟩)

end Session

/-- The scenes of a document with its roots, and what went wrong. -/
structure Expansion where
  scenes : List (Layout String)
  diagnostics : List Diagnostic
  deriving Repr

namespace Expansion

def roots (expansion : Expansion) : List (Block String) :=
  expansion.scenes.flatMap Layout.topLevel

end Expansion

namespace Document

/-- Each layout line is a scene. Without any, each root is one: the given roots, or
those inferred from the templates. -/
def scenes (document : Document) (roots : List String) : List (Layout Unit) :=
  if document.expressions.isEmpty then
    let names := if roots.isEmpty then document.templates.inferRoots else roots
    names.map fun name => document.templates.instantiate name none true
  else document.expressions.map (document.templates.expand [] false)

def expand (document : Document) (roots : List String) : Expansion :=
  let scenes := document.scenes roots
  ⟨Layout.numberAll 1 scenes, scenes.flatMap document.templates.unknownTemplates⟩

end Document

end Wireframe
