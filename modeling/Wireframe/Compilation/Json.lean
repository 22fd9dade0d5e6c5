import Wireframe.Compilation
import Wireframe.Expr.Json

/-! The JSON form of documents, layouts and compilations. -/

namespace Wireframe

def StyleMap.toJson (styles : StyleMap) : Json :=
  .object (styles.declarations.map fun declaration =>
    (declaration.key, .string declaration.value))

instance : ToJson StyleMap := ⟨StyleMap.toJson⟩

/-- Unknown positions are left out. -/
def Diagnostic.toJson (diagnostic : Diagnostic) : Json :=
  let position (key : String) (value : Option Nat) : List (String × Json) :=
    value.elim [] fun value => [(key, .number value)]
  .object ([("level", .string diagnostic.level.keyword), ("message", .string diagnostic.message)] ++
    position "line" diagnostic.line ++ position "column" diagnostic.column)

instance : ToJson Diagnostic := ⟨Diagnostic.toJson⟩

def Template.toJson (template : Template) : Json :=
  .object [("name", .string template.name),
    ("first_defined_line", .number template.firstLine),
    ("default_children", Wireframe.toJson template.defaultChildren),
    ("styles", template.styles.toJson),
    ("content", Wireframe.toJson template.content)]

instance : ToJson Template := ⟨Template.toJson⟩

instance : ToJson Registry := ⟨fun registry => toJson registry.templates⟩

def Statement.toJson : Statement → Json
  | .layout line raw expression =>
      .object [("kind", .string "structure"), ("line", .number line), ("raw", .string raw),
        ("top_level_entities", Wireframe.toJson expression.topLevel),
        ("expression", expression.toJson)]
  | .style line raw entity tokens =>
      .object [("kind", .string "style"), ("line", .number line), ("raw", .string raw),
        ("entity", .string entity), ("tokens", Wireframe.toJson tokens)]

instance : ToJson Statement := ⟨Statement.toJson⟩

def Document.toJson (document : Document) : Json :=
  .object [("source", .string document.source),
    ("statements", Wireframe.toJson document.statements),
    ("templates", Wireframe.toJson document.templates),
    ("diagnostics", Wireframe.toJson document.diagnostics)]

instance : ToJson Document := ⟨Document.toJson⟩

/-- A node with its content, where `null` stands for none. -/
def Node.toJson (content : Json) (node : Node String) : Json :=
  .object [("id", .string node.id), ("template_name", .string node.template),
    ("content", content), ("styles", node.styles.toJson),
    ("terminated", .bool node.terminated)]

namespace Layout

mutual
def toJson : Layout String → Json
  | .leaf node => .object [("kind", .string "entity"), ("node", node.toJson .null)]
  | .box node content =>
      .object [("kind", .string "entity"), ("node", node.toJson content.toJson)]
  | .group direction children =>
      .object [("kind", .string "group"), ("direction", .string direction.keyword),
        ("children", .array (toJsonAll children))]

def toJsonAll : List (Layout String) → List Json
  | [] => []
  | item :: rest => item.toJson :: toJsonAll rest
end

end Layout

instance : ToJson (Layout String) := ⟨Layout.toJson⟩

def Block.toJson (block : Block String) : Json :=
  block.node.toJson (Wireframe.toJson block.content)

instance : ToJson (Block String) := ⟨Block.toJson⟩

def Expansion.toJson (expansion : Expansion) : Json :=
  .object [("roots", Wireframe.toJson expansion.roots),
    ("scenes", Wireframe.toJson expansion.scenes),
    ("diagnostics", Wireframe.toJson expansion.diagnostics)]

instance : ToJson Expansion := ⟨Expansion.toJson⟩

def Compilation.toJson (compilation : Compilation) : Json :=
  .object [("mode", .string compilation.purpose.keyword),
    ("document", compilation.document.toJson),
    ("roots", Wireframe.toJson compilation.roots),
    ("scenes", Wireframe.toJson compilation.scenes),
    ("diagnostics", Wireframe.toJson compilation.diagnostics)]

instance : ToJson Compilation := ⟨Compilation.toJson⟩

end Wireframe
