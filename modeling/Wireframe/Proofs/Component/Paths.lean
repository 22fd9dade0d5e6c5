import Wireframe.Component
import Wireframe.Compilation
import Wireframe.Proofs.Document.Names
import Wireframe.Proofs.Files.Writing
import Wireframe.Style.Shorthand

/-! The paths of component files. A component is written with a capital, so templates whose
names differ in the case of the first letter alone share one file, which is that of the last;
apart from these, every template has a file of its own. -/

namespace Wireframe

/-- The letters of names have one capital, which is such a letter again. -/
theorem Text.uppercase_of_isHead {c : Char} (head : Name.isHead c) :
    Text.uppercase c = [c.toUpper] ∧ Name.isHead c.toUpper := by
  have small : c.toNat < 128 := by
    have range := Name.code_of_isHead head
    omega
  have ascii : ∀ code : Fin 128, Name.isHead (Char.ofNat code) →
      Text.uppercase (Char.ofNat code) = [(Char.ofNat code).toUpper] ∧
        Name.isHead (Char.ofNat code).toUpper := by decide +kernel
  have same := ascii ⟨c.toNat, small⟩
  rw [Char.ofNat_toNat] at same
  exact same head

theorem Name.IsPlain.not_mem {name : String} (plain : IsPlain name) {c : Char}
    (notTail : isTail c = false) : c ∉ name.toList := by
  obtain ⟨head, tail, named, isHead, isTail⟩ := plain
  rw [named, List.mem_cons]
  rintro (rfl | member)
  · rw [isTail_of_isHead isHead] at notTail
    cases notTail
  · rw [isTail c member] at notTail
    cases notTail

namespace Component

/-- Names that differ in the case of their first letter and in nothing else. -/
def Recased (name other : String) : Prop :=
  ∃ first second tail, name.toList = first :: tail ∧ other.toList = second :: tail ∧
    first ≠ second ∧ first.toUpper = second.toUpper

theorem Recased.ne {name other : String} (recased : Recased name other) : name ≠ other := by
  obtain ⟨first, second, tail, split, splitOther, different, -⟩ := recased
  rintro rfl
  exact different (List.cons.inj (split.symm.trans splitOther)).1

section Names

variable {name other : String}

theorem toList_capitalize {head : Char} {tail : List Char} (named : name.toList = head :: tail)
    (isHead : Name.isHead head) : (capitalize name).toList = head.toUpper :: tail := by
  simp [capitalize, named, (Text.uppercase_of_isHead isHead).1]

theorem capitalize_eq_iff (plain : Name.IsPlain name) (plainOther : Name.IsPlain other) :
    capitalize name = capitalize other ↔ name = other ∨ Recased name other := by
  obtain ⟨first, tail, named, isHead, -⟩ := plain
  obtain ⟨second, others, namedOther, isHeadOther, -⟩ := plainOther
  rw [← String.toList_inj, ← String.toList_inj, toList_capitalize named isHead,
    toList_capitalize namedOther isHeadOther, named, namedOther, List.cons.injEq, List.cons.injEq]
  constructor
  · rintro ⟨upper, rfl⟩
    by_cases same : first = second
    · exact .inl ⟨same, rfl⟩
    · exact .inr ⟨first, second, tail, named, namedOther, same, upper⟩
  · rintro (⟨rfl, rfl⟩ | ⟨left, right, rest, split, splitOther, -, upper⟩)
    · exact ⟨rfl, rfl⟩
    · rw [named, List.cons.injEq] at split
      rw [namedOther, List.cons.injEq] at splitOther
      obtain ⟨rfl, rfl⟩ := split
      obtain ⟨rfl, rfl⟩ := splitOther
      exact ⟨upper, rfl⟩

theorem isPlain_tagName (framework : Framework) (plain : Name.IsPlain name) :
    Name.IsPlain (tagName framework name) := by
  have capital : Name.IsPlain (capitalize name) := by
    obtain ⟨head, tail, named, isHead, isTail⟩ := plain
    exact ⟨_, tail, toList_capitalize named isHead, (Text.uppercase_of_isHead isHead).2, isTail⟩
  cases framework with
  | html => exact plain
  | vue | react => exact capital

/-- Where the file of a template stands in the output directory. -/
def path (framework : Framework) (name : String) : String :=
  tagName framework name ++ framework.extension

theorem path_eq_iff (framework : Framework) (plain : Name.IsPlain name)
    (plainOther : Name.IsPlain other) :
    path framework name = path framework other ↔
      name = other ∨ framework ≠ .html ∧ Recased name other := by
  have cancel : path framework name = path framework other ↔
      tagName framework name = tagName framework other := by
    rw [path, path, ← String.toList_inj, String.toList_append, String.toList_append,
      List.append_left_inj, String.toList_inj]
  rw [cancel]
  cases framework with
  | html => simp [tagName]
  | vue | react => simpa [tagName] using capitalize_eq_iff plain plainOther

/-- The path of a component is a plain file name. -/
theorem isFileName_path (framework : Framework) (plain : Name.IsPlain name) :
    Path.IsFileName (path framework name) := by
  have tag := isPlain_tagName framework plain
  obtain ⟨head, tail, named, isHead, -⟩ := id tag
  have begins : (path framework name).toList = head :: (tail ++ framework.extension.toList) := by
    rw [path, String.toList_append, named, List.cons_append]
  have different : head ≠ '.' := by
    rintro rfl
    exact absurd isHead (by decide)
  constructor
  case nonempty => simp [begins]
  case noSlash =>
    rw [path, String.toList_append, List.mem_append, not_or]
    exact ⟨tag.not_mem rfl, by cases framework <;> decide⟩
  case isName =>
    have notHere : path framework name ≠ Path.here := fun same => by
      rw [same] at begins
      exact different (List.cons.inj begins).1.symm
    have notUp : path framework name ≠ Path.up := fun same => by
      rw [same] at begins
      exact different (List.cons.inj begins).1.symm
    simp [Path.isName, notHere, notUp]

/-- No path has a way up in it, since the only dot is that of the extension. -/
theorem not_up_infix_path (framework : Framework) (plain : Name.IsPlain name) :
    ¬ Path.up.toList <:+: (path framework name).toList := by
  intro inside
  have tag : (tagName framework name).toList.count '.' = 0 :=
    List.count_eq_zero.mpr ((isPlain_tagName framework plain).not_mem rfl)
  have extension : framework.extension.toList.count '.' = 1 := by cases framework <;> decide
  have dots : Path.up.toList.count '.' = 2 := by decide
  have atMost := inside.sublist.count_le '.'
  rw [path, String.toList_append, List.count_append] at atMost
  omega

end Names

section Files

variable {framework : Framework} {registry : Registry}

theorem map_path_files : (files framework registry).map (·.path) =
    registry.names.map (path framework) := by
  rw [files, List.map_map, Registry.names, List.map_map]
  rfl

theorem nodup_map_path_files (distinct : registry.names.Nodup)
    (plain : ∀ name ∈ registry.names, Name.IsPlain name) :
    ((files framework registry).map (·.path)).Nodup ↔
      framework = .html ∨
        ∀ name ∈ registry.names, ∀ other ∈ registry.names, ¬ Recased name other := by
  rw [map_path_files, List.nodup_map_iff_inj_on distinct]
  constructor
  · intro injective
    by_contra shared
    push Not at shared
    obtain ⟨component, name, known, other, knownOther, recased⟩ := shared
    have same := injective name known other knownOther
      ((path_eq_iff framework (plain name known) (plain other knownOther)).mpr
        (.inr ⟨component, recased⟩))
    exact recased.ne same
  · intro apart name known other knownOther same
    rcases (path_eq_iff framework (plain name known) (plain other knownOther)).mp same with
      equal | ⟨component, recased⟩
    · exact equal
    · exact absurd recased (apart.resolve_left component name known other knownOther)

theorem exists_name_of_mem_files {file : ComponentFile}
    (member : file ∈ files framework registry) :
    ∃ name ∈ registry.names, path framework name = file.path := by
  have listed : file.path ∈ (files framework registry).map (·.path) := List.mem_map_of_mem member
  rw [map_path_files] at listed
  exact List.mem_map.mp listed

theorem isFileName_of_mem_files (plain : ∀ name ∈ registry.names, Name.IsPlain name)
    {file : ComponentFile} (member : file ∈ files framework registry) :
    Path.IsFileName file.path := by
  obtain ⟨name, known, same⟩ := exists_name_of_mem_files member
  exact same ▸ isFileName_path framework (plain name known)

theorem written?_files (files : List ComponentFile) (path : String) :
    FileTree.written? (files.map fun file => (file.path, file.content)) path =
      (files.findRev? (·.path == path)).map (·.content) := by
  rw [FileTree.written?, List.findRev?_eq_find?_reverse, List.findRev?_eq_find?_reverse,
    ← List.map_reverse, List.find?_map, Option.map_map]
  rfl

theorem findRev?_path {files : List ComponentFile} (distinct : (files.map (·.path)).Nodup)
    {file : ComponentFile} (member : file ∈ files) :
    files.findRev? (·.path == file.path) = some file := by
  rw [List.findRev?_eq_find?_reverse]
  cases found : files.reverse.find? (·.path == file.path) with
  | none => simpa using List.find?_eq_none.mp found file (List.mem_reverse.mpr member)
  | some other =>
      have listed := List.mem_reverse.mp (List.mem_of_find?_eq_some found)
      have same : other.path = file.path := by simpa using List.find?_some found
      rw [List.inj_on_of_nodup_map distinct listed member same]

end Files

end Component

namespace FileTree

/-- An empty directory of a tree. -/
structure Vacant (tree : FileTree) (directory : String) (location : Location) : Prop where
  leadsTo : tree.LeadsTo directory location
  isEmpty : ∀ name, tree.entry? (location ++ [name]) = none

end FileTree

/-- The files of a compilation have distinct paths, but for those of components whose names
differ in the case of the first letter alone. Written into an empty directory, the last file
of each path is there; if the paths are distinct, every file is there as it is. -/
theorem Compilation.files_apart (resolve : Resolver) (purpose : Purpose) (roots : List String)
    (source : String) (framework : Framework) :
    let registry := (ofSource resolve purpose roots source).document.templates
    let files := Component.files framework registry
    ((files.map (·.path)).Nodup ↔ framework = .html ∨
        ∀ name ∈ registry.names, ∀ other ∈ registry.names, ¬ Component.Recased name other) ∧
      ∀ (input : ByteArray) (tree : FileTree) (directory : String) (location : Location),
        tree.Vacant directory location → ∃ after,
          ((FileTree.host input).writeAll directory
            (files.map fun file => (file.path, file.content))).run tree = (.ok (), after) ∧
          (∀ path, after.entry? (location ++ [path]) =
            (files.findRev? (·.path == path)).map fun file => .file file.content.toUTF8) ∧
          (∀ other, (∀ file ∈ files, other ≠ location ++ [file.path]) →
            after.entry? other = tree.entry? other) ∧
          ((files.map (·.path)).Nodup → ∀ file ∈ files,
            after.entry? (location ++ [file.path]) = some (.file file.content.toUTF8)) := by
  intro registry files
  have distinct : registry.names.Nodup := Document.nodup_names resolve source
  have plain : ∀ name ∈ registry.names, Name.IsPlain name := fun name =>
    Document.isPlain_of_mem_names resolve source
  refine ⟨Component.nodup_map_path_files distinct plain, ?_⟩
  intro input tree directory location vacant
  let written := files.map fun file => (file.path, file.content)
  have paths : written.map Prod.fst = files.map (·.path) := List.map_map
  have isFileName : ∀ name ∈ written.map Prod.fst, Path.IsFileName name := by
    rw [paths, List.forall_mem_map]
    exact fun file member => Component.isFileName_of_mem_files plain member
  have free : ∀ name ∈ written.map Prod.fst,
      tree.entry? (location ++ [name]) ≠ some .directory := by
    intro name _
    rw [vacant.isEmpty name]
    exact nofun
  have stands : ∀ path, FileTree.entry? (tree.addFiles location written) (location ++ [path]) =
      (files.findRev? (·.path == path)).map fun file => .file file.content.toUTF8 := by
    intro path
    rw [FileTree.entry?_addFiles, vacant.isEmpty, Option.or_none, Component.written?_files,
      Option.map_map]
    rfl
  refine ⟨_, vacant.leadsTo.writeAll input isFileName free, stands, ?_, ?_⟩
  · intro other elsewhere
    apply FileTree.entry?_addFiles_of_ne
    rw [paths, List.forall_mem_map]
    exact elsewhere
  · intro apart file member
    rw [stands, Component.findRev?_path apart member, Option.map_some]

/-- Two components whose names differ in the case of the first letter. -/
theorem Document.templates_parse_recased : (parse Shorthand.resolve "a\nA").templates =
    ⟨[⟨"a", 1, .empty, none⟩, ⟨"A", 2, .empty, none⟩]⟩ := by
  have small : Line.ofSource "a".toList = .layout [] (.ok (.entity "a")) := by cbv
  have capital : Line.ofSource "A".toList = .layout [] (.ok (.entity "A")) := by cbv
  have inSource : numbered "a\nA" = [("a".toList, 1), ("A".toList, 2)] := by decide
  rw [templates_parse, inSource, List.flatMap_cons, List.flatMap_singleton, small, capital]
  rfl

/-- As pages they have a file each. -/
theorem Compilation.files_apart_html :
    let registry := (ofSource Shorthand.resolve .generate [] "a\nA").document.templates
    let files := Component.files .html registry
    let tree : FileTree := ⟨[(["out"], .directory)], []⟩
    tree.Vacant "out" ["out"] ∧ files.map (·.path) = ["a.html", "A.html"] ∧
      ∃ after,
        ((FileTree.host .empty).writeAll "out"
          (files.map fun file => (file.path, file.content))).run tree = (.ok (), after) ∧
        ∀ file ∈ files,
          after.entry? ["out", file.path] = some (.file file.content.toUTF8) := by
  intro registry files tree
  have templates : registry = _ := Document.templates_parse_recased
  have paths : files.map (·.path) = ["a.html", "A.html"] := by
    rw [show files = Component.files .html registry from rfl, templates]
    decide
  have vacant : tree.Vacant "out" ["out"] := ⟨⟨rfl, rfl⟩, fun _ => rfl⟩
  obtain ⟨distinct, written⟩ := files_apart Shorthand.resolve .generate [] "a\nA" .html
  obtain ⟨after, run, -, -, kept⟩ := written .empty tree "out" ["out"] vacant
  exact ⟨vacant, paths, after, run, kept (distinct.mpr (.inl rfl))⟩

/-- As components with a script they share one, and the first of them is lost. -/
theorem Compilation.files_share_path :
    let registry := (ofSource Shorthand.resolve .generate [] "a\nA").document.templates
    let files := Component.files .vue registry
    let tree : FileTree := ⟨[(["out"], .directory)], ["out"]⟩
    registry.names = ["a", "A"] ∧ ¬ (files.map (·.path)).Nodup ∧
      ∃ lost kept after, files = [lost, kept] ∧ lost.content ≠ kept.content ∧
        ((FileTree.host .empty).writeAll ""
          (files.map fun file => (file.path, file.content))).run tree = (.ok (), after) ∧
        after.entry? ["out", lost.path] = some (.file kept.content.toUTF8) := by
  intro registry files tree
  have templates : registry = _ := Document.templates_parse_recased
  let lost := Component.file .vue ⟨"a", 1, .empty, none⟩
  let kept := Component.file .vue ⟨"A", 2, .empty, none⟩
  have generated : files = [lost, kept] := by
    rw [show files = Component.files .vue registry from rfl, templates]
    rfl
  have lostPath : lost.path = "A.vue" := by decide
  have keptPath : kept.path = "A.vue" := by decide
  have leadsTo : tree.LeadsTo "" ["out"] := ⟨rfl, rfl⟩
  have isFileName : Path.IsFileName "A.vue" := ⟨by decide, by decide, by decide⟩
  have absent : tree.entry? ["out", "A.vue"] = none := rfl
  rw [generated]
  refine ⟨by rw [templates]; rfl, by simp [lostPath, keptPath], lost, kept, _, rfl, by decide,
    leadsTo.writeAll .empty ?_ ?_, ?_⟩
  · simpa [lostPath, keptPath] using isFileName
  · simp [lostPath, keptPath, absent]
  · have last : [lost, kept].findRev? (·.path == "A.vue") = some kept := by
      simp [List.findRev?, keptPath]
    have stands := FileTree.entry?_addFiles tree ["out"]
      ([lost, kept].map fun file => (file.path, file.content)) "A.vue"
    rw [Component.written?_files, last] at stands
    rw [lostPath]
    exact stands

end Wireframe
