import Wireframe.Diagnostic
import Wireframe.Html
import Wireframe.Layout

/-! The preview page: every scene as nested boxes, then the diagnostics. -/

namespace Wireframe

/-- How the page looks. The node styles are those that every node starts from. -/
structure PreviewSettings where
  title : String
  gap : String
  terminusLabel : String
  nodeStyles : StyleMap
  deriving Repr

def PreviewSettings.default : PreviewSettings where
  title := "Luming Preview"
  gap := "6px"
  terminusLabel := "Terminus"
  nodeStyles := .ofList [⟨"border", "1px solid #94a3b8"⟩, ⟨"padding", "8px"⟩,
    ⟨"margin", "6px"⟩, ⟨"border-radius", "8px"⟩, ⟨"background-color", "#ffffff"⟩]

namespace Preview

/-- The styles as the value of an attribute. -/
def inlineStyle (styles : StyleMap) : String :=
  " ".intercalate (styles.declarations.map fun declaration =>
    declaration.key ++ ": " ++ declaration.value ++ ";")

def groupStyle (settings : PreviewSettings) (direction : Direction) : String :=
  "display:flex; flex-direction:" ++ direction.keyword ++
    "; align-items:stretch; gap:" ++ settings.gap ++ ";"

/-- The name of the template, with a remark if the node is terminated. -/
def label (settings : PreviewSettings) (node : Node ι) : String :=
  node.template ++ if node.terminated then " (" ++ settings.terminusLabel ++ ")" else ""

/-- The box of a node that lies in `level` others. -/
def nodeBox (settings : PreviewSettings) (level : Nat) (node : Node ι)
    (content : List Html) : Html :=
  .element "div"
    [("class", "luming-node level-" ++ toString level),
      ("style", inlineStyle (settings.nodeStyles.overlay node.styles))]
    (.element "div" [("class", "luming-label")] [.text (label settings node)] :: content)

mutual
def layoutBox (settings : PreviewSettings) (level : Nat) : Layout ι → Html
  | .leaf node => nodeBox settings level node []
  | .box node content =>
      nodeBox settings level node [layoutBox settings (level + 1) content]
  | .group direction children =>
      .element "div"
        [("class", "luming-group"), ("style", groupStyle settings direction)]
        (layoutBoxes settings level children)

def layoutBoxes (settings : PreviewSettings) (level : Nat) : List (Layout ι) → List Html
  | [] => []
  | item :: rest => layoutBox settings level item :: layoutBoxes settings level rest
end

def sceneSection (settings : PreviewSettings) (number : Nat) (scene : Layout ι) : Html :=
  .element "section" [("class", "luming-scene"), ("data-scene", toString number)]
    [layoutBox settings 0 scene]

/-- The scenes on lines of their own, numbered from one. -/
def sceneSections (settings : PreviewSettings) (scenes : List (Layout ι)) : List Html :=
  if scenes.isEmpty then [.element "p" [] [.text "No structure scene parsed."]]
  else
    ((scenes.zipIdx 1).map fun (scene, number) =>
      sceneSection settings number scene).intersperse (.text "\n")

def diagnosticItem (diagnostic : Diagnostic) : Html :=
  .element "li" []
    [.text ("[" ++ diagnostic.level.keyword ++ "] " ++ diagnostic.message)]

def diagnosticList (diagnostics : List Diagnostic) : List Html :=
  if diagnostics.isEmpty then []
  else
    [.element "aside" [("class", "luming-diags")]
      [.element "h2" [] [.text "Diagnostics"],
        .element "ul" [] (diagnostics.map diagnosticItem)]]

def styleSheet : String :=
  "      body \x7b font-family: -apple-system, BlinkMacSystemFont, \"Segoe UI\", sans-serif; margin: 16px; background: #f8fafc; \x7d\n" ++
  "      .luming-label \x7b font-size: 12px; color: #334155; margin-bottom: 6px; font-weight: 600; \x7d\n" ++
  "      .luming-scene \x7b margin-bottom: 12px; \x7d\n" ++
  "      .luming-diags \x7b background: #fff7ed; border: 1px solid #fdba74; border-radius: 8px; padding: 10px 14px; \x7d\n" ++
  "      .luming-diags h2 \x7b margin: 0 0 8px; font-size: 14px; \x7d\n" ++
  "      .luming-diags ul \x7b margin: 0; padding-left: 18px; \x7d"

def head (settings : PreviewSettings) : Html :=
  .element "head" []
    [.text "\n    ", .void "meta" [("charset", "utf-8")],
      .text "\n    ",
      .void "meta" [("name", "viewport"), ("content", "width=device-width, initial-scale=1")],
      .text "\n    ", .element "title" [] [.text settings.title],
      .text "\n    ", .element "style" [] [.verbatim ("\n" ++ styleSheet ++ "\n    ")],
      .text "\n  "]

def body (settings : PreviewSettings) (scenes : List (Layout ι))
    (diagnostics : List Diagnostic) : Html :=
  .element "body" []
    ([.text "\n    "] ++ sceneSections settings scenes ++ [.text "\n    "] ++
      diagnosticList diagnostics ++ [.text "\n  "])

def page (settings : PreviewSettings) (scenes : List (Layout ι))
    (diagnostics : List Diagnostic) : Html :=
  .element "html" [("lang", "en")]
    [.text "\n  ", head settings, .text "\n  ", body settings scenes diagnostics, .text "\n"]

/-- The whole text of the page. -/
def print (settings : PreviewSettings) (scenes : List (Layout ι))
    (diagnostics : List Diagnostic) : String :=
  "<!doctype html>\n" ++ (page settings scenes diagnostics).print ++ "\n"

end Preview

end Wireframe
