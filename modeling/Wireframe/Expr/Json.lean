import Wireframe.Expr
import Wireframe.Json

/-! The JSON form of layout expressions. -/

namespace Wireframe

instance : ToJson Direction := ⟨fun direction => .string direction.keyword⟩

mutual
def Expr.toJson : Expr → Json
  | .entity name => .object [("kind", .string "entity"), ("name", .string name)]
  | .group direction children =>
      .object [("kind", .string "group"), ("direction", .string direction.keyword),
        ("children", .array (Expr.toJsonAll children))]
  | .container name content =>
      .object [("kind", .string "container"), ("name", .string name),
        ("content", content.toJson)]

def Expr.toJsonAll : List Expr → List Json
  | [] => []
  | item :: rest => item.toJson :: Expr.toJsonAll rest
end

instance : ToJson Expr := ⟨Expr.toJson⟩

end Wireframe
