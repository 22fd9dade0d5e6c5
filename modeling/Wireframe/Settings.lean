import Wireframe.Component
import Wireframe.Preview
import Wireframe.Toml.Document

/-! The settings of a project: TOML with a section for the preview page and one for the
component files. Everything may be left out, and what is not known is ignored. -/

namespace Wireframe

structure Settings where
  preview : PreviewSettings
  generate : GenerateSettings
  deriving Repr

namespace Settings

def default : Settings :=
  ⟨.default, .default⟩

def text? : Toml → Option String
  | .string text => some text
  | _ => none

/-- The key under which a date or time stands for a table. -/
def datetimeKey : String := "$__toml_private_datetime"

/-- The entries of a table. A date or time is one with a single key. -/
def entries? : Toml → Option Toml.Entries
  | .table _ entries => some entries
  | .datetime text => some [(datetimeKey, .string text)]
  | _ => none

/-- The values of a section's fields. A section is a table, or an array that holds all
fields in order and perhaps more. -/
def fields? (names : List String) : Toml → Option (List (Option Toml))
  | .array items | .tables items =>
      if names.length ≤ items.length then some ((items.take names.length).map some) else none
  | toml => (entries? toml).map fun entries => names.map fun name => entries.lookup name

/-- Decodes a value that may be missing. -/
def decode? (decode : Toml → Option α) : Option Toml → Option (Option α)
  | none => some none
  | some value => (decode value).map some

def styles? (toml : Toml) : Option (List Declaration) := do
  (← entries? toml).mapM fun (key, value) => do return ⟨key, ← text? value⟩

def isEmpty : Toml → Bool
  | .array items | .tables items => items.isEmpty
  | .table _ entries => entries.isEmpty
  | _ => false

/-- A framework by its name, or as the only key of a table with an empty value. -/
def framework? : Toml → Option Framework
  | .string name => Framework.ofKeyword? name
  | .table _ [(name, value)] => if isEmpty value then Framework.ofKeyword? name else none
  | _ => none

def preview? (toml : Toml) : Option PreviewSettings := do
  match ← fields? ["title", "gap", "terminus_label", "node"] toml with
  | [title, gap, label, node] =>
      let base := PreviewSettings.default
      return {
        title := (← decode? text? title).getD base.title
        gap := (← decode? text? gap).getD base.gap
        terminusLabel := (← decode? text? label).getD base.terminusLabel
        nodeStyles := base.nodeStyles.insertAll ((← decode? styles? node).getD []) }
  | _ => none

def generate? (toml : Toml) : Option GenerateSettings := do
  match ← fields? ["framework", "out_dir"] toml with
  | [framework, directory] =>
      let base := GenerateSettings.default
      return {
        framework := (← decode? framework? framework).getD base.framework
        directory := (← decode? text? directory).getD base.directory }
  | _ => none

def ofEntries? (entries : Toml.Entries) : Option Settings := do
  return {
    preview := (← decode? preview? (entries.lookup "preview")).getD .default
    generate := (← decode? generate? (entries.lookup "generate")).getD .default }

/-- Reads settings; `none` if the text is no TOML or a value is of the wrong kind. -/
def parse? (source : String) : Option Settings :=
  Toml.parse? source >>= ofEntries?

end Settings

end Wireframe
