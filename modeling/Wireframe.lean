import Wireframe.Files.Tree
import Wireframe.Main
import Wireframe.Proofs.Grammar
import Wireframe.Proofs.Grammar.Reading
import Wireframe.Proofs.Grammar.Rejection
import Wireframe.Proofs.Expansion
import Wireframe.Proofs.Expansion.Context
import Wireframe.Proofs.Expansion.Ancestry
import Wireframe.Proofs.Expansion.Nesting
import Wireframe.Proofs.Document.Coverage
import Wireframe.Proofs.Document.Templates
import Wireframe.Proofs.Expansion.Scenes
import Wireframe.Proofs.Expansion.Mirror
import Wireframe.Proofs.Expansion.Numbering
import Wireframe.Proofs.Expansion.Independence
import Wireframe.Proofs.Text
import Wireframe.Proofs.Document.Draft
import Wireframe.Proofs.Document.Rejection
import Wireframe.Proofs.Document.References
import Wireframe.Proofs.Document.Anchor
import Wireframe.Proofs.Document.InlineStyle
import Wireframe.Proofs.Grammar.NormalForm
import Wireframe.Proofs.Document.Columns
import Wireframe.Proofs.Unstyled
import Wireframe.Proofs.Document.Names
import Wireframe.Proofs.Component.Paths
import Wireframe.Proofs.Files.Writing
import Wireframe.Proofs.Diagnostic.Place
import Wireframe.Proofs.Grammar.Scanning
import Wireframe.Proofs.Grammar.Blame
import Wireframe.Proofs.Expansion.Roots
import Wireframe.Proofs.Component.Script
import Wireframe.Proofs.Component.Bindings
import Wireframe.Proofs.Component.Links
import Wireframe.Proofs.Html.Escaping
import Wireframe.Proofs.Html.Reading
import Wireframe.Proofs.Html.Tags
import Wireframe.Proofs.Preview.Boxes
import Wireframe.Proofs.Preview.Page
import Wireframe.Proofs.Document.Cutting
import Wireframe.Proofs.Except
import Wireframe.Proofs.Grammar.Tiling
import Wireframe.Proofs.Grammar.Target
import Wireframe.Proofs.Files.Changes
import Wireframe.Proofs.CommandLine.Frame
import Wireframe.Proofs.Grammar.Juxtaposition
import Wireframe.Proofs.Grammar.Parentheses
import Wireframe.Proofs.Component.Markup
import Wireframe.Proofs.Style.Dictionary
import Wireframe.Proofs.Style.EndTag
import Wireframe.Proofs.Component.StyleSheet
import Wireframe.Proofs.Diagnostic.Span
import Wireframe.Proofs.Registry.Calls
import Wireframe.Proofs.Registry.Index
import Wireframe.Proofs.Json
import Wireframe.Proofs.Component.StyleObject
import Wireframe.Proofs.Style.Longhand
import Wireframe.Proofs.Document.Written
import Wireframe.Proofs.Document.Longhand
import Wireframe.Proofs.Text.Replace
import Wireframe.Proofs.Expr.Join
