/-! JSON values whose objects keep the order of their fields, and their written
form: strings escape only what they must, and nesting indents by two spaces. -/

namespace Wireframe

inductive Json
  | bool (value : Bool)
  | null
  | number (value : Nat)
  | string (value : String)
  | array (items : List Json)
  | object (fields : List (String × Json))
  deriving Repr, Inhabited

namespace Json

/-- A lower-case hexadecimal digit. -/
def hexDigit (digit : Nat) : Char :=
  Char.ofNat (if digit < 10 then 0x30 + digit else 0x57 + digit)

/-- A character inside a JSON string. Quotes, backslashes and control characters are
escaped, the common controls by a letter. -/
def escapeChar (c : Char) : List Char :=
  match c with
  | '"' => ['\\', '"']
  | '\\' => ['\\', '\\']
  | '\x08' => ['\\', 'b']
  | '\x0c' => ['\\', 'f']
  | '\n' => ['\\', 'n']
  | '\r' => ['\\', 'r']
  | '\t' => ['\\', 't']
  | _ =>
      if c.toNat < 0x20 then
        ['\\', 'u', '0', '0', hexDigit (c.toNat / 16), hexDigit (c.toNat % 16)]
      else [c]

/-- A text as a JSON string with its quotes. -/
def quote (text : String) : String :=
  String.ofList ('"' :: (text.toList.flatMap escapeChar ++ ['"']))

def indent (depth : Nat) : String :=
  String.ofList (List.replicate (2 * depth) ' ')

/-- Items on lines of their own between two brackets; brackets without items stay
together. -/
def block (opener closer : String) (depth : Nat) (items : List String) : String :=
  if items.isEmpty then opener ++ closer
  else
    opener ++ "\n" ++
      ",\n".intercalate (items.map (indent (depth + 1) ++ ·)) ++
      "\n" ++ indent depth ++ closer

mutual
/-- The written form of a value that stands at the given depth. -/
def prettyAt (depth : Nat) : Json → String
  | .bool value => if value then "true" else "false"
  | .null => "null"
  | .number value => toString value
  | .string value => quote value
  | .array items => block "[" "]" depth (prettyItems (depth + 1) items)
  | .object fields => block "\x7b" "\x7d" depth (prettyFields (depth + 1) fields)

def prettyItems (depth : Nat) : List Json → List String
  | [] => []
  | item :: rest => item.prettyAt depth :: prettyItems depth rest

def prettyFields (depth : Nat) : List (String × Json) → List String
  | [] => []
  | (key, value) :: rest =>
      (quote key ++ ": " ++ value.prettyAt depth) :: prettyFields depth rest
end

def pretty (value : Json) : String :=
  value.prettyAt 0

end Json

/-- What has a JSON form. -/
class ToJson (α : Type) where
  toJson : α → Json

export ToJson (toJson)

namespace ToJson

instance : ToJson String := ⟨.string⟩

instance : ToJson Nat := ⟨.number⟩

instance : ToJson Bool := ⟨.bool⟩

instance [ToJson α] : ToJson (List α) := ⟨fun items => .array (items.map toJson)⟩

instance [ToJson α] : ToJson (Option α) := ⟨fun value => value.elim .null toJson⟩

end ToJson

end Wireframe
