import Wireframe.Json
import Wireframe.Registry
import Wireframe.Text.Uppercase

/-! Component files: one for each template, with markup for its content and its styles,
in the form that a framework expects. -/

namespace Wireframe

inductive Framework
  | html
  | vue
  | react
  deriving Repr, DecidableEq

namespace Framework

def keyword : Framework → String
  | .html => "html"
  | .vue => "vue"
  | .react => "react"

def ofKeyword? : String → Option Framework
  | "html" => some .html
  | "vue" => some .vue
  | "react" => some .react
  | _ => none

def extension : Framework → String
  | .html => ".html"
  | .vue => ".vue"
  | .react => ".tsx"

end Framework

/-- A file with its path in the output directory. -/
structure ComponentFile where
  path : String
  content : String
  deriving Repr, DecidableEq

namespace Component

/-- A name with its first character in upper case. -/
def capitalize (name : String) : String :=
  match name.toList with
  | [] => ""
  | first :: rest => String.ofList (Text.uppercase first ++ rest)

/-- Components are written with a capital, plain tags as they are. -/
def tagName : Framework → String → String
  | .html, name => name
  | .vue, name => capitalize name
  | .react, name => capitalize name

/-- A tag on a line of its own. -/
inductive Tag
  | empty (name : String)
  | start (name : String)
  | stop (name : String)
  | startGroup (direction : Direction)
  | stopGroup
  deriving Repr, DecidableEq

def Tag.print (framework : Framework) : Tag → String
  | .empty name => "<" ++ tagName framework name ++ " />"
  | .start name => "<" ++ tagName framework name ++ ">"
  | .stop name => "</" ++ tagName framework name ++ ">"
  | .startGroup direction =>
      match framework with
      | .html | .vue =>
          "<div style=\"display:flex; flex-direction:" ++ direction.keyword ++ "; gap:8px;\">"
      | .react =>
          "<div style=\x7b\x7b display: \"flex\", flexDirection: \"" ++ direction.keyword ++
            "\", gap: \"8px\" \x7d\x7d>"
  | .stopGroup => "</div>"

/-- A tag at the depth of its indentation. -/
structure Line where
  depth : Nat
  tag : Tag
  deriving Repr, DecidableEq

def Line.print (framework : Framework) (line : Line) : String :=
  Json.indent line.depth ++ line.tag.print framework

mutual
/-- The tags of an expression: an entity is an empty tag, a container stands around its
content, and a group is a box of its own. -/
def lines (depth : Nat) : Expr → List Line
  | .entity name => [⟨depth, .empty name⟩]
  | .group direction children =>
      ⟨depth, .startGroup direction⟩ :: (linesAll (depth + 1) children ++ [⟨depth, .stopGroup⟩])
  | .container name content =>
      ⟨depth, .start name⟩ :: (lines (depth + 1) content ++ [⟨depth, .stop name⟩])

def linesAll (depth : Nat) : List Expr → List Line
  | [] => []
  | item :: rest => lines depth item ++ linesAll depth rest
end

def markup (framework : Framework) (depth : Nat) (content : Option Expr) : List String :=
  (content.elim [] (lines depth)).map (Line.print framework)

/-- The other templates that the content uses, in the order of their first use. -/
def dependencies (template : Template) : List String :=
  ((template.content.elim [] Expr.references).filter (· ≠ template.name)).eraseDups

/-- The styles as declarations of a style sheet. -/
def rules (styles : StyleMap) : List String :=
  styles.declarations.map fun declaration =>
    "  " ++ declaration.key ++ ": " ++ declaration.value ++ ";"

/-- A style sheet with one block for the class of the template. -/
def styleBlock (opener : String) (template : Template) : List String :=
  [opener, "." ++ template.name ++ " \x7b"] ++ rules template.styles ++ ["\x7d", "</style>"]

def htmlLines (template : Template) : List String :=
  ["<section class=\"" ++ template.name ++ "\">"] ++
    markup .html 1 template.content ++
    ["</section>", ""] ++
    styleBlock "<style>" template

def vueImport (name : String) : String :=
  "import " ++ capitalize name ++ " from './" ++ capitalize name ++ ".vue';"

def vueLines (template : Template) : List String :=
  ["<script setup lang=\"ts\">"] ++
    (dependencies template).map vueImport ++
    ["</script>", "", "<template>", "  <section class=\"" ++ template.name ++ "\">"] ++
    markup .vue 2 template.content ++
    ["  </section>", "</template>", ""] ++
    styleBlock "<style scoped>" template

def reactImport (name : String) : String :=
  "import \x7b " ++ capitalize name ++ " \x7d from './" ++ capitalize name ++ "';"

def reactStyle (declaration : Declaration) : String :=
  "      " ++ Json.quote declaration.key ++ ": " ++ Json.quote declaration.value

/-- The fields of the style object, with commas between them. -/
def reactStyles : List Declaration → List String
  | [] => []
  | [last] => [reactStyle last]
  | first :: rest => (reactStyle first ++ ",") :: reactStyles rest

def reactLines (template : Template) : List String :=
  ["import React from 'react';"] ++
    (dependencies template).map reactImport ++
    ["", "export function " ++ capitalize template.name ++ "() \x7b", "  return (",
      "    <section style=\x7b\x7b"] ++
    reactStyles template.styles.declarations ++
    ["    \x7d\x7d>"] ++
    markup .react 3 template.content ++
    ["    </section>", "  );", "\x7d"]

def fileLines : Framework → Template → List String
  | .html => htmlLines
  | .vue => vueLines
  | .react => reactLines

def file (framework : Framework) (template : Template) : ComponentFile where
  path := tagName framework template.name ++ framework.extension
  content := "\n".intercalate (fileLines framework template) ++ "\n"

/-- The files of all templates, in the order of the registry. -/
def files (framework : Framework) (registry : Registry) : List ComponentFile :=
  registry.templates.map (file framework)

end Component

/-- Where component files go, and for which framework. -/
structure GenerateSettings where
  framework : Framework
  directory : String
  deriving Repr

def GenerateSettings.default : GenerateSettings :=
  ⟨.html, "generated"⟩

end Wireframe
