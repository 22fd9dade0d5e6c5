import Wireframe.CommandLine.Run
import Wireframe.Proofs.Component.Paths
import Wireframe.Proofs.Files.Changes

/-! What a run of the command line can do to files. All reading comes first and changes
nothing; then a preview writes one file, components are written into one directory, and a
check ends as it began. -/

namespace Wireframe

namespace Command

/-- The path of the settings that a command reads. -/
def config : Command → Option String
  | .preview _ _ config => config
  | .generate _ _ _ config => config
  | .check .. => none

/-- The path of the source that a command reads. -/
def operand : Command → Option String
  | .preview input _ _ => input
  | .generate input _ _ _ => input
  | .check input _ => input

/-- What a command does with what it has read. -/
def perform {m : Type → Type} [Monad m] (host : Host m) (roots : List String)
    (settings : Settings) (source : Source) : Command → m Outcome
  | .preview _ output _ => writePreview host roots output settings source
  | .generate _ output framework _ =>
      writeComponents host roots output framework settings source
  | .check _ json => return checked roots json source

theorem run_eq {m : Type → Type} [Monad m] (host : Host m) (roots : List String)
    (command : Command) : command.run host roots = do
      match ← load host command.config command.operand with
      | .ok (settings, source) => command.perform host roots settings source
      | .error failure => return .failed "" failure := by
  cases command with
  | preview | generate | check => rfl

end Command

namespace FileTree

def readText (tree : FileTree) (path : String) : Except FileError String :=
  tree.readFile path >>= textOf

def settings (tree : FileTree) : Option String → Except Failure Settings
  | none => .ok .default
  | some path => Settings.ofFile (tree.readText path)

def source (tree : FileTree) (input : ByteArray) : Option String → Except Failure Source
  | none => Source.ofInput input
  | some path => Source.ofFile path (tree.readText path)

/-- What a command reads in a tree, the settings before the source. -/
def load (tree : FileTree) (input : ByteArray) (command : Command) :
    Except Failure (Settings × Source) := do
  return (← tree.settings command.config, ← tree.source input command.operand)

theorem exists_load_eq_error {tree : FileTree} {input : ByteArray} {command : Command}
    {failure : Failure}
    (failed : tree.settings command.config = .error failure ∨
      tree.source input command.operand = .error failure) :
    ∃ other, tree.load input command = .error other := by
  unfold load
  cases settings : tree.settings command.config with
  | error first => exact ⟨first, rfl⟩
  | ok read =>
      rw [settings] at failed
      rw [failed.resolve_left nofun]
      exact ⟨failure, rfl⟩

theorem run_loadSettings (input : ByteArray) (tree : FileTree) (config : Option String) :
    (Command.loadSettings (host input) config).run.run tree = (tree.settings config, tree) := by
  cases config with
  | none => rfl
  | some path => rfl

theorem run_loadSource (input : ByteArray) (tree : FileTree) (operand : Option String) :
    (Command.loadSource (host input) operand).run.run tree =
      (tree.source input operand, tree) := by
  cases operand with
  | none => rfl
  | some path => rfl

theorem run_load (input : ByteArray) (tree : FileTree) (command : Command) :
    (Command.load (host input) command.config command.operand).run tree =
      (tree.load input command, tree) := by
  have settings := run_loadSettings input tree command.config
  have source := run_loadSource input tree command.operand
  unfold Command.load load
  simp only [ExceptT.run_bind, StateT.run_bind, settings]
  cases tree.settings command.config with
  | error failure => rfl
  | ok read =>
      -- the rest of the reading after the settings
      change StateT.run (ExceptT.run (Command.loadSource (host input) _ >>= _)) tree = _
      rw [ExceptT.run_bind, StateT.run_bind, source]
      cases tree.source input command.operand with
      | error failure => rfl
      | ok text => rfl

end FileTree

namespace Command

variable (workingDirectory : Location) (roots : List String) (settings : Settings)
  (source : Source)

/-- The places of the files that a command may write. -/
def files : Command → List Location
  | .preview _ output _ => [Location.ofText workingDirectory output]
  | .generate _ output framework _ =>
      let directory := output.getD settings.generate.directory
      let framework := framework.getD settings.generate.framework
      let templates := (source.compile .generate roots).document.templates
      (Component.files framework templates).map fun file =>
        Location.ofText workingDirectory directory ++ [file.path]
  | .check .. => []

/-- The places of the directories that a command may make. -/
def directories : Command → List Location
  | .generate _ output _ _ =>
      let directory := output.getD settings.generate.directory
      (Path.chain directory).map (Location.ofText workingDirectory)
  | .preview .. | .check .. => []

theorem confined_writeComponents (input : ByteArray) (operand output : Option String)
    (framework : Option Framework) (config : Option String) :
    FileTree.Confined workingDirectory
      (files workingDirectory roots settings source (.generate operand output framework config))
      (directories workingDirectory settings (.generate operand output framework config))
      (writeComponents (FileTree.host input) roots output framework settings source) := by
  let directory := output.getD settings.generate.directory
  let components := Component.files (framework.getD settings.generate.framework)
    (source.compile .generate roots).document.templates
  have plain : ∀ file ∈ components.map fun file => (file.path, file.content),
      Path.IsFileName file.1 := by
    rw [List.forall_mem_map]
    exact fun file => Component.isFileName_of_mem_files fun name =>
      Document.isPlain_of_mem_names Shorthand.resolve source.text
  have all := FileTree.confined_writeAll_of_isFileName workingDirectory input directory plain
  rw [List.map_map] at all
  refine FileTree.Confined.bind all fun outcome => ?_
  cases outcome with
  | ok => exact .pure _
  | error error => exact .pure _

theorem confined_perform (input : ByteArray) (command : Command) :
    FileTree.Confined workingDirectory
      (command.files workingDirectory roots settings source)
      (command.directories workingDirectory settings)
      (command.perform (FileTree.host input) roots settings source) := by
  cases command with
  | preview operand output config =>
      refine (FileTree.confined_writeFile workingDirectory input output _).bind fun written => ?_
      cases written with
      | ok => exact .pure _
      | error error => exact .pure _
  | generate operand output framework config =>
      exact confined_writeComponents workingDirectory roots settings source input operand output
        framework config
  | check operand json => exact .pure _

end Command

namespace Host

variable (input : ByteArray) (tree : FileTree)

theorem run_command (roots : List String) (command : Command) :
    (command.run (FileTree.host input) roots).run tree =
      match tree.load input command with
      | .ok (settings, source) =>
          (command.perform (FileTree.host input) roots settings source).run tree
      | .error failure => (.failed "" failure, tree) := by
  rw [Command.run_eq, StateT.run_bind, FileTree.run_load]
  cases tree.load input command with
  | ok loaded => rfl
  | error failure => rfl

theorem run_of_usage {words : List String} (misused : Invocation.ofWords? words = none) :
    ((FileTree.host input).run words).run tree = (none, tree) := by
  rw [Host.run, misused]
  rfl

theorem run_of_invocation {words : List String} {invocation : Invocation}
    (used : Invocation.ofWords? words = some invocation) :
    ((FileTree.host input).run words).run tree =
      ((invocation.command.run (FileTree.host input) invocation.roots).run tree).map some id := by
  rw [Host.run, used]
  rfl

end Host

/-- Names are plain wherever a document has them, so the path of every component is a plain
file name. A run on a tree leaves it as it is if the words are misused, the settings or the
source cannot be read, or the command is a check; in all other cases it writes at most the
file of a preview, or files with the paths of components in the output directory, which it
may make with those above. -/
theorem Host.run_confined :
    (∀ resolve source,
      let document := Document.parse resolve source
      (∀ template ∈ document.templates.templates, Name.IsPlain template.name ∧
        ∀ content, template.content = some content →
          ∀ name ∈ content.references, Name.IsPlain name) ∧
      (∀ statement ∈ document.statements, ∀ name ∈ statement.names, Name.IsPlain name) ∧
      ∀ framework, ∀ file ∈ Component.files framework document.templates,
        Path.IsFileName file.path ∧ ¬ Path.up.toList <:+: file.path.toList ∧
          ∃ stem, Name.IsPlain stem ∧ file.path = stem ++ framework.extension) ∧
    ∀ input words tree,
      let ran := ((FileTree.host input).run words).run tree
      (Invocation.ofWords? words = none → ran = (none, tree)) ∧
      ∀ roots command, Invocation.ofWords? words = some ⟨roots, command⟩ →
        ((∃ operand json, command = .check operand json) → ran.2 = tree) ∧
        (∀ failure, tree.settings command.config = .error failure ∨
            tree.source input command.operand = .error failure →
          ∃ errors, ran = (some ⟨1, "", errors⟩, tree)) ∧
        ∀ settings source, tree.settings command.config = .ok settings →
          tree.source input command.operand = .ok source →
          FileTree.Grows (command.files tree.workingDirectory roots settings source)
            (command.directories tree.workingDirectory settings) tree ran.2 := by
  constructor
  · intro resolve source document
    have plain : ∀ name ∈ document.templates.names, Name.IsPlain name := fun name =>
      Document.isPlain_of_mem_names resolve source
    refine ⟨?templates, ?statements, ?files⟩
    case templates =>
      intro template member
      refine ⟨plain _ (List.mem_map_of_mem member), fun content stored name mentioned => ?_⟩
      exact Document.isPlain_of_mem_content resolve source member stored mentioned
    case statements =>
      intro statement member name mentioned
      exact Document.isPlain_of_mem_statement resolve source member mentioned
    case files =>
      intro framework file member
      obtain ⟨name, known, same⟩ := Component.exists_name_of_mem_files member
      rw [← same]
      exact ⟨Component.isFileName_path framework (plain name known),
        Component.not_up_infix_path framework (plain name known), _,
        Component.isPlain_tagName framework (plain name known), rfl⟩
  · intro input words tree ran
    refine ⟨fun misused => run_of_usage input tree misused, ?_⟩
    intro roots command used
    have whole : ran = _ := run_of_invocation input tree used
    rw [run_command] at whole
    refine ⟨?check, ?failed, ?loaded⟩
    case check =>
      rintro ⟨operand, json, rfl⟩
      rw [whole]
      cases tree.load input (.check operand json) with
      | ok loaded => rfl
      | error failure => rfl
    case failed =>
      intro failure failed
      obtain ⟨other, failed⟩ := FileTree.exists_load_eq_error failed
      rw [whole, failed]
      exact ⟨_, rfl⟩
    case loaded =>
      intro settings source loaded read
      have both : tree.load input command = .ok (settings, source) := by
        rw [FileTree.load, loaded, read]
        rfl
      rw [whole, both]
      exact Command.confined_perform tree.workingDirectory roots settings source input command
        tree rfl

end Wireframe
