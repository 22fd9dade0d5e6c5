import Wireframe.Proofs.Files.Writing

/-! What file operations can change in a tree. Where a path leads does not depend on what is
there, so the places that an action may touch are known before it runs: a file is written
over another one or where nothing is, a directory is made where nothing is, and all other
places stay as they are, also when the action fails half-way. -/

namespace Wireframe

/-- The place next to another one that a part of a path leads to. -/
def Location.next (location : Location) (part : String) : Location :=
  if part = Path.here then location
  else if part = Path.up then location.dropLast
  else location ++ [part]

/-- The place that a path leads to from a working directory. -/
def Location.ofText (workingDirectory : Location) (text : String) : Location :=
  let path := Path.ofText text
  path.parts.foldl Location.next (if path.fromRoot then [] else workingDirectory)

theorem Location.ofText_child (workingDirectory : Location) (directory : String) {name : String}
    (plain : Path.IsFileName name) :
    Location.ofText workingDirectory (Path.child directory name) =
      Location.ofText workingDirectory directory ++ [name] := by
  obtain ⟨notHere, notUp⟩ := Path.isName_iff.mp plain.isName
  unfold Location.ofText
  rw [Path.ofText_child directory plain]
  simp [Location.next, notHere, notUp]

example : Location.ofText ["home", "work"] (Path.child "../out//./pages/" "a.html") =
    ["home", "out", "pages", "a.html"] := by decide

/-- What may become of a place, if a file may be written there or a directory be made. -/
inductive Entry.Change (written made : Prop) : Option Entry → Option Entry → Prop
  | kept (entry : Option Entry) : Change written made entry entry
  | wrote (allowed : written) {before : Option Entry} (free : before ≠ some .directory)
      (content : ByteArray) : Change written made before (some (.file content))
  | made (allowed : made) : Change written made none (some .directory)

namespace Entry.Change

variable {written made otherWritten otherMade : Prop} {first second third : Option Entry}

theorem trans (earlier : Change written made first second)
    (later : Change written made second third) : Change written made first third := by
  cases later with
  | kept => exact earlier
  | wrote allowed free content =>
      -- a directory that was made is no place for a file
      cases earlier with
      | kept => exact .wrote allowed free content
      | wrote _ freeBefore _ => exact .wrote allowed freeBefore content
      | made _ => exact absurd rfl free
  | made allowed =>
      cases earlier with
      | kept => exact .made allowed

theorem mono (change : Change written made first second) (more : written → otherWritten)
    (moreMade : made → otherMade) : Change otherWritten otherMade first second := by
  cases change with
  | kept => exact .kept _
  | wrote allowed free content => exact .wrote (more allowed) free content
  | made allowed => exact .made (moreMade allowed)

theorem eq (change : Change False False first second) : second = first := by
  cases change with
  | kept => rfl
  | wrote allowed | made allowed => exact allowed.elim

end Entry.Change

namespace FileTree

/-- A tree after files were written and directories were made at some places. -/
structure Grows (files directories : List Location) (before after : FileTree) : Prop where
  workingDirectory : after.workingDirectory = before.workingDirectory
  change : ∀ place, Entry.Change (place ∈ files) (place ∈ directories)
    (before.entry? place) (after.entry? place)

namespace Grows

variable {files directories moreFiles moreDirectories : List Location}
  {before middle after : FileTree}

theorem refl (tree : FileTree) : Grows files directories tree tree where
  workingDirectory := rfl
  change _ := .kept _

theorem trans (earlier : Grows files directories before middle)
    (later : Grows files directories middle after) : Grows files directories before after where
  workingDirectory := later.workingDirectory.trans earlier.workingDirectory
  change place := (earlier.change place).trans (later.change place)

theorem mono (grows : Grows files directories before after) (more : files ⊆ moreFiles)
    (moreMade : directories ⊆ moreDirectories) :
    Grows moreFiles moreDirectories before after where
  workingDirectory := grows.workingDirectory
  change place := (grows.change place).mono (@more place) (@moreMade place)

theorem insert_file {tree : FileTree} {location : Location} (content : ByteArray)
    (free : tree.entry? location ≠ some .directory) :
    Grows [location] [] tree (tree.insert location (.file content)) where
  workingDirectory := rfl
  change place := by
    rw [entry?_insert _ (ne_nil_of_free free)]
    by_cases same : place = location
    · rw [if_pos same]
      exact .wrote (List.mem_singleton.mpr same) (same ▸ free) content
    · rw [if_neg same]
      exact .kept _

theorem insert_directory {tree : FileTree} {location : Location}
    (free : tree.entry? location = none) :
    Grows [] [location] tree (tree.insert location .directory) where
  workingDirectory := rfl
  change place := by
    have isFree : tree.entry? location ≠ some .directory := by
      rw [free]
      exact nofun
    rw [entry?_insert _ (ne_nil_of_free isFree)]
    by_cases same : place = location
    · rw [if_pos same, same, free]
      exact .made (List.mem_singleton_self location)
    · rw [if_neg same]
      exact .kept _

end Grows

/-! Where a path leads. -/

section Place

variable {tree : FileTree} {location next : Location} {text : String}

theorem eq_next_of_enter {part : String} (entered : tree.enter location part = .ok next) :
    next = location.next part := by
  by_cases named : Path.isName part = true
  · obtain ⟨notHere, notUp⟩ := Path.isName_iff.mp named
    rw [Location.next, if_neg notHere, if_neg notUp]
    exact ((enter_eq_ok_iff named).mp entered).1
  · have special : part = Path.here ∨ part = Path.up := by
      rwa [Path.isName_iff, not_and_or, not_not, not_not] at named
    rcases special with rfl | rfl
    · exact (Except.ok.inj entered).symm
    · exact (Except.ok.inj entered).symm

theorem eq_foldl_of_foldlM {parts : List String}
    (walked : parts.foldlM tree.enter location = .ok next) :
    next = parts.foldl Location.next location := by
  induction parts generalizing location with
  | nil => exact (Except.ok.inj walked).symm
  | cons part rest ih =>
      rw [List.foldlM_cons] at walked
      obtain ⟨middle, entered, walked⟩ := bind_eq_ok_iff.mp walked
      rw [List.foldl_cons, ← eq_next_of_enter entered]
      exact ih walked

theorem eq_ofText_of_locate {named : Bool}
    (located : tree.locate (Path.ofText text) = .ok (location, named)) :
    location = Location.ofText tree.workingDirectory text := by
  unfold locate at located
  unfold Location.ofText
  cases last : (Path.ofText text).parts.getLast? with
  | none =>
      have noParts := List.getLast?_eq_none_iff.mp last
      simp only [last] at located
      split at located
      next fromRoot =>
        cases located
        simp [noParts, fromRoot]
      · cases located
  | some part =>
      obtain ⟨init, split⟩ := List.getLast?_eq_some_iff.mp last
      simp only [split, List.getLast?_concat, List.dropLast_concat] at located
      obtain ⟨directory, walked, located⟩ := bind_eq_ok_iff.mp located
      have outer : directory = init.foldl Location.next (tree.start (Path.ofText text)) :=
        eq_foldl_of_foldlM walked
      simp only [split, List.foldl_append, List.foldl_cons, List.foldl_nil]
      change location = (init.foldl Location.next (tree.start (Path.ofText text))).next part
      rw [← outer]
      by_cases isName : Path.isName part = true
      · rw [if_pos isName] at located
        obtain ⟨notHere, notUp⟩ := Path.isName_iff.mp isName
        cases located
        rw [Location.next, if_neg notHere, if_neg notUp]
      · rw [if_neg isName] at located
        obtain ⟨place, entered, located⟩ := bind_eq_ok_iff.mp located
        cases located
        exact eq_next_of_enter entered

/-- A file that is written takes the place that its path leads to. -/
theorem grows_of_writeFile {after : FileTree} {content : ByteArray}
    (wrote : tree.writeFile text content = .ok after) :
    Grows [Location.ofText tree.workingDirectory text] [] tree after := by
  unfold writeFile at wrote
  obtain ⟨⟨place, named⟩, located, wrote⟩ := bind_eq_ok_iff.mp wrote
  rw [← eq_ofText_of_locate located]
  simp only at wrote
  split at wrote
  · cases wrote
  · split at wrote
    · cases wrote
    next free =>
      obtain rfl := Except.ok.inj wrote
      exact .insert_file content free

theorem grows_of_makeDirectory {after : FileTree} (made : tree.makeDirectory text = .ok after) :
    Grows [] [Location.ofText tree.workingDirectory text] tree after := by
  unfold makeDirectory at made
  obtain ⟨⟨place, named⟩, located, made⟩ := bind_eq_ok_iff.mp made
  rw [← eq_ofText_of_locate located]
  simp only at made
  split at made
  next allowed =>
    obtain rfl := Except.ok.inj made
    rw [Bool.and_eq_true, Option.isNone_iff_eq_none] at allowed
    exact .insert_directory allowed.2
  · cases made

end Place

/-- An action that, from a working directory, changes a tree at some places alone. -/
def Confined (workingDirectory : Location) (files directories : List Location)
    (action : StateM FileTree α) : Prop :=
  ∀ tree, tree.workingDirectory = workingDirectory →
    Grows files directories tree (action.run tree).2

namespace Confined

variable {workingDirectory : Location}
  {files directories moreFiles moreDirectories : List Location}

theorem of_unchanged {action : StateM FileTree α} (unchanged : ∀ tree, (action.run tree).2 = tree) :
    Confined workingDirectory files directories action := by
  intro tree _
  rw [unchanged tree]
  exact .refl tree

theorem pure (value : α) :
    Confined workingDirectory files directories (Pure.pure value : StateM FileTree α) :=
  of_unchanged fun _ => rfl

theorem bind {first : StateM FileTree α} {next : α → StateM FileTree β}
    (start : Confined workingDirectory files directories first)
    (goOn : ∀ value, Confined workingDirectory files directories (next value)) :
    Confined workingDirectory files directories (first >>= next) := by
  intro tree same
  have earlier := start tree same
  exact earlier.trans (goOn _ _ (earlier.workingDirectory.trans same))

theorem mono {action : StateM FileTree α}
    (confined : Confined workingDirectory files directories action)
    (more : files ⊆ moreFiles) (moreMade : directories ⊆ moreDirectories) :
    Confined workingDirectory moreFiles moreDirectories action :=
  fun tree same => (confined tree same).mono more moreMade

theorem attempt {change : FileTree → Except FileError FileTree}
    (grows : ∀ tree after, tree.workingDirectory = workingDirectory → change tree = .ok after →
      Grows files directories tree after) :
    Confined workingDirectory files directories (attempt change) := by
  intro tree same
  cases changed : change tree with
  | error error =>
      rw [attempt_error changed]
      exact .refl tree
  | ok after =>
      rw [attempt_ok changed]
      exact grows tree after same changed

end Confined

section Host

variable (workingDirectory : Location) (input : ByteArray)

theorem confined_writeFile (text : String) (content : ByteArray) :
    Confined workingDirectory [Location.ofText workingDirectory text] []
      ((host input).writeFile text content) :=
  .attempt fun _ _ same wrote => same ▸ grows_of_writeFile wrote

theorem confined_makeDirectory (text : String) :
    Confined workingDirectory [] [Location.ofText workingDirectory text]
      ((host input).makeDirectory text) :=
  .attempt fun _ _ same made => same ▸ grows_of_makeDirectory made

theorem confined_isDirectory (text : String) :
    Confined workingDirectory [] [] ((host input).isDirectory text) :=
  .of_unchanged fun _ => rfl

theorem confined_provide (text : String) :
    Confined workingDirectory [] [Location.ofText workingDirectory text]
      ((host input).provide text) := by
  refine (confined_makeDirectory workingDirectory input text).bind fun made => ?_
  cases made with
  | ok => exact .pure _
  | error error =>
      have looked := confined_isDirectory workingDirectory input text
      exact (looked.bind fun _ => .pure _).mono (List.Subset.refl _) (List.nil_subset _)

/-- Only the directories of a chain are made, also if some of them cannot be made. -/
theorem confined_provideChain (chain : List String) :
    Confined workingDirectory [] (chain.map (Location.ofText workingDirectory))
      ((host input).provideChain chain) := by
  induction chain with
  | nil => exact .pure _
  | cons text outer ih =>
      have here : [Location.ofText workingDirectory text] ⊆
          (text :: outer).map (Location.ofText workingDirectory) := by simp
      have above : outer.map (Location.ofText workingDirectory) ⊆
          (text :: outer).map (Location.ofText workingDirectory) := by simp
      have nothing : ([] : List Location) ⊆ [] := List.Subset.refl _
      refine ((confined_makeDirectory workingDirectory input text).mono nothing here).bind ?_
      intro made
      cases made with
      | ok => exact .pure _
      | error error =>
          cases error with
          | notFound =>
              refine (ih.mono nothing above).bind fun provided => ?_
              cases provided with
              | ok => exact (confined_provide workingDirectory input text).mono nothing here
              | error error => exact .pure _
          | alreadyExists | notADirectory | isADirectory | invalidText | other message =>
              have looked := confined_isDirectory workingDirectory input text
              exact (looked.bind fun _ => .pure _).mono nothing (List.nil_subset _)

/-- Only the named files are written, also if the directory is none. -/
theorem confined_writeInto (directory : String) (files : List (String × String)) :
    Confined workingDirectory
      (files.map fun file => Location.ofText workingDirectory (Path.child directory file.1)) []
      ((host input).writeInto directory files) := by
  induction files with
  | nil => exact .pure _
  | cons first rest ih =>
      have wrote := confined_writeFile workingDirectory input (Path.child directory first.1)
        first.2.toUTF8
      refine (wrote.mono (by simp) (List.nil_subset _)).bind fun written => ?_
      cases written with
      | ok => exact ih.mono (by simp) (List.nil_subset _)
      | error error => exact .pure _

theorem confined_writeAll (directory : String) (files : List (String × String)) :
    Confined workingDirectory
      (files.map fun file => Location.ofText workingDirectory (Path.child directory file.1))
      ((Path.chain directory).map (Location.ofText workingDirectory))
      ((host input).writeAll directory files) := by
  have provided := confined_provideChain workingDirectory input (Path.chain directory)
  refine (provided.mono (List.nil_subset _) (List.Subset.refl _)).bind fun outcome => ?_
  cases outcome with
  | ok =>
      have written := confined_writeInto workingDirectory input directory files
      exact written.mono (List.Subset.refl _) (List.nil_subset _)
  | error error => exact .pure _

/-- Files with plain names stay in the directory that they are written into. -/
theorem confined_writeAll_of_isFileName (directory : String) {files : List (String × String)}
    (plain : ∀ file ∈ files, Path.IsFileName file.1) :
    Confined workingDirectory
      (files.map fun file => Location.ofText workingDirectory directory ++ [file.1])
      ((Path.chain directory).map (Location.ofText workingDirectory))
      ((host input).writeAll directory files) := by
  have places := List.map_congr_left fun file member =>
    Location.ofText_child workingDirectory directory (plain file member)
  rw [← places]
  exact confined_writeAll workingDirectory input directory files

end Host

end FileTree

end Wireframe
