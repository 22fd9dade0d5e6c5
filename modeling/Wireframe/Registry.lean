import Wireframe.Expr
import Wireframe.Style

/-! Templates and the registry that holds one for each name, in the order in which the
names were first seen. A registry grows by edits. -/

namespace Wireframe

/-- What is known of a name: where it was first seen, its styles, and its content. -/
structure Template where
  name : String
  firstLine : Nat
  styles : StyleMap
  content : Option Expr
  deriving Repr

namespace Template

def new (name : String) (line : Nat) : Template :=
  ⟨name, line, .empty, none⟩

/-- The names at the top of the content. -/
def defaultChildren (template : Template) : List String :=
  template.content.elim [] Expr.topLevel

def applyStyle (declaration : Declaration) (template : Template) : Template :=
  { template with styles := template.styles.insert declaration }

def setContent (content : Expr) (template : Template) : Template :=
  { template with content := some content }

end Template

structure Registry where
  templates : List Template
  deriving Repr

namespace Registry

def empty : Registry :=
  ⟨[]⟩

def names (registry : Registry) : List String :=
  registry.templates.map (·.name)

def get? (registry : Registry) (name : String) : Option Template :=
  registry.templates.find? (·.name == name)

def contains (registry : Registry) (name : String) : Bool :=
  registry.templates.any (·.name == name)

/-- Adds a template for a name that has none. -/
def ensure (registry : Registry) (name : String) (line : Nat) : Registry :=
  if registry.contains name then registry
  else ⟨registry.templates ++ [Template.new name line]⟩

/-- Changes the template of a name. -/
def modify (registry : Registry) (name : String) (change : Template → Template) : Registry :=
  ⟨registry.templates.map fun template =>
    if template.name = name then change template else template⟩

@[simp] theorem names_empty : empty.names = [] := rfl

theorem contains_iff_mem_names {registry : Registry} {name : String} :
    registry.contains name ↔ name ∈ registry.names := by
  simp [contains, names]

theorem names_ensure (registry : Registry) (name : String) (line : Nat) :
    (registry.ensure name line).names =
      if name ∈ registry.names then registry.names else registry.names ++ [name] := by
  simp only [ensure, ← contains_iff_mem_names]
  split <;> simp [names, Template.new]

theorem names_modify (registry : Registry) (name : String) {change : Template → Template}
    (keeps : ∀ template, (change template).name = template.name) :
    (registry.modify name change).names = registry.names := by
  simp only [names, modify, List.map_map]
  refine List.map_congr_left fun template _ => ?_
  simp only [Function.comp_apply]
  split
  · exact keeps template
  · rfl

/-- One step in the growth of a registry. -/
inductive Edit
  | sight (name : String) (line : Nat)
  | style (name : String) (line : Nat) (declaration : Declaration)
  | content (name : String) (line : Nat) (content : Expr)
  deriving Repr

def apply (registry : Registry) : Edit → Registry
  | .sight name line => registry.ensure name line
  | .style name line declaration =>
      (registry.ensure name line).modify name (Template.applyStyle declaration)
  | .content name line content =>
      (registry.ensure name line).modify name (Template.setContent content)

def applyAll (registry : Registry) (edits : List Edit) : Registry :=
  edits.foldl apply registry

end Registry

mutual
/-- The edits that an expression on a line makes: each name is sighted in order, and
a container gives its name its content before anything inside is sighted. -/
def Expr.edits (line : Nat) : Expr → List Registry.Edit
  | .entity name => [.sight name line]
  | .group _ children => Expr.editsAll line children
  | .container name content => .content name line content :: content.edits line

def Expr.editsAll (line : Nat) : List Expr → List Registry.Edit
  | [] => []
  | item :: rest => item.edits line ++ Expr.editsAll line rest
end

/-- Registers every name of an expression and the content of its containers. -/
def Registry.register (registry : Registry) (expression : Expr) (line : Nat) : Registry :=
  registry.applyAll (expression.edits line)

/-- The names that no content refers to, or every name if there is none. -/
def Registry.inferRoots (registry : Registry) : List String :=
  let contained := registry.templates.flatMap fun template =>
    template.content.elim [] Expr.references
  let roots := registry.names.filter fun name => name ∉ contained
  if roots.isEmpty then registry.names else roots

end Wireframe
