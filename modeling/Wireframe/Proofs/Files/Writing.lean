import Mathlib.Data.List.Basic
import Wireframe.Files.Tree
import Wireframe.Proofs.Except

/-! Writing files into a directory of a tree. The directory stays where it is, each file is
at its name in it, with the content that was written last, and nothing else changes. -/

namespace Wireframe

namespace Path

/-- A name of a file in a directory. -/
structure IsFileName (name : String) : Prop where
  nonempty : name.toList ≠ []
  noSlash : '/' ∉ name.toList
  isName : Path.isName name = true

theorem splitOn_append_cons (separator : Char) (front back : List Char) :
    (front ++ separator :: back).splitOn separator =
      front.splitOn separator ++ back.splitOn separator :=
  List.splitOnP_append_cons front back (by simp)

theorem IsFileName.splitOn {name : String} (plain : IsFileName name) :
    name.toList.splitOn '/' = [name.toList] :=
  List.splitOn_eq_singleton plain.noSlash

theorem isName_iff {part : String} : isName part = true ↔ part ≠ here ∧ part ≠ up := by
  simp [isName]

theorem ofText_append (front : List Char) {name : String} (plain : IsFileName name) :
    ofText (String.ofList (front ++ '/' :: name.toList)) =
      ⟨(front ++ ['/']).head? == some '/',
        ((front.splitOn '/').filter (· ≠ [])).map String.ofList ++ [name], false⟩ := by
  have begins : (front ++ '/' :: name.toList).head? = (front ++ ['/']).head? := by
    cases front <;> rfl
  unfold ofText
  simp only [String.toList_ofList, splitOn_append_cons, plain.splitOn, begins]
  simp [plain.nonempty]

theorem ofText_of_isFileName {name : String} (plain : IsFileName name) :
    ofText name = ⟨false, [name], false⟩ := by
  have notRoot : (name.toList.head? == some '/') = false := by
    rw [beq_eq_false_iff_ne]
    exact fun first => plain.noSlash (List.mem_of_head? first)
  unfold ofText
  simp only [plain.splitOn, notRoot]
  simp [plain.nonempty]

/-- The path of a name in a directory has the parts of the directory and that name. -/
theorem ofText_child (directory : String) {name : String} (plain : IsFileName name) :
    ofText (child directory name) =
      ⟨(ofText directory).fromRoot, (ofText directory).parts ++ [name], false⟩ := by
  unfold child
  by_cases here : directory.toList = []
  · have empty : directory = "" := String.toList_inj.mp here
    rw [if_pos (.inl here), empty, String.empty_append, ofText_of_isFileName plain]
    rfl
  · by_cases ends : directory.toList.getLast? = some '/'
    · obtain ⟨init, split⟩ := List.getLast?_eq_some_iff.mp ends
      have whole : directory ++ name = String.ofList (init ++ '/' :: name.toList) := by
        rw [← String.toList_inj]
        simp [split]
      rw [if_pos (.inr ends), whole, ofText_append init plain]
      simp [ofText, split, splitOn_append_cons]
    · have whole : directory ++ "/" ++ name =
          String.ofList (directory.toList ++ '/' :: name.toList) := by
        rw [← String.toList_inj]
        simp
      have begins : (directory.toList ++ ['/']).head? = directory.toList.head? := by
        cases begins : directory.toList with
        | nil => exact absurd begins here
        | cons c rest => rfl
      rw [if_neg (not_or_intro here ends), whole, ofText_append directory.toList plain, begins]
      rfl

theorem fromRoot_of_parts {text : String} (nonempty : text ≠ "")
    (noParts : (ofText text).parts = []) : (ofText text).fromRoot = true := by
  cases characters : text.toList with
  | nil => exact absurd (String.toList_inj.mp characters) nonempty
  | cons c rest =>
      by_cases slash : c = '/'
      · simp [ofText, characters, slash]
      · have started : ((c :: rest).splitOn '/') =
            List.modifyHead (List.cons c) (rest.splitOn '/') := by
          rw [List.splitOn_cons_eq_if_modifyHead, if_neg (by simpa using slash)]
        have pieces : rest.splitOn '/' ≠ [] := List.splitOn_ne_nil '/' rest
        cases others : rest.splitOn '/' with
        | nil => exact absurd others pieces
        | cons first later =>
            simp [ofText, characters, started, others] at noParts

end Path

namespace FileTree

variable {tree : FileTree} {location other : Location}

theorem lookup_filter (entries : List (Location × Entry)) (different : other ≠ location) :
    (entries.filter fun (place, _) => place ≠ location).lookup other = entries.lookup other := by
  induction entries with
  | nil => rfl
  | cons first rest ih =>
      obtain ⟨place, entry⟩ := first
      by_cases same : place = location
      · have apart : (other == location) = false := beq_eq_false_iff_ne.mpr different
        rw [List.filter_cons_of_neg (by simp [same]), ih, List.lookup_cons, same, apart]
      · rw [List.filter_cons_of_pos (by simp [same]), List.lookup_cons, List.lookup_cons, ih]

theorem entry?_insert (entry : Entry) (below : location ≠ []) :
    entry? (tree.insert location entry) other =
      if other = location then some entry else tree.entry? other := by
  unfold entry? insert
  by_cases same : other = location
  · simp [same, below]
  · have apart : (other == location) = false := beq_eq_false_iff_ne.mpr same
    rw [if_neg same, List.lookup_cons, apart]
    exact congrArg _ (lookup_filter tree.entries same)

/-- A text leads to a directory of a tree. -/
structure LeadsTo (tree : FileTree) (text : String) (location : Location) : Prop where
  walks : (Path.ofText text).parts.foldlM tree.enter (tree.start (Path.ofText text)) =
    .ok location
  isDirectory : tree.entry? location = some .directory

/-! A file takes the place of no directory, so every way that could be gone still can. -/

section Insert

variable {content : ByteArray} {text : String}

theorem ne_nil_of_free (free : tree.entry? location ≠ some .directory) : location ≠ [] := by
  rintro rfl
  exact free rfl

theorem entry?_insert_directory (free : tree.entry? location ≠ some .directory)
    (isDirectory : tree.entry? other = some .directory) :
    entry? (tree.insert location (.file content)) other = some .directory := by
  have different : other ≠ location := fun same => free (same ▸ isDirectory)
  rw [entry?_insert _ (ne_nil_of_free free), if_neg different, isDirectory]

theorem enter_eq_ok_iff {part : String} (named : Path.isName part = true) :
    tree.enter other part = .ok location ↔
      location = other ++ [part] ∧ tree.entry? location = some .directory := by
  obtain ⟨notHere, notUp⟩ := Path.isName_iff.mp named
  rw [enter, if_neg notHere, if_neg notUp]
  constructor
  · intro entered
    split at entered
    · cases entered
    · cases entered
    next found =>
      obtain rfl := Except.ok.inj entered
      exact ⟨rfl, found⟩
  · rintro ⟨rfl, isDirectory⟩
    rw [isDirectory]

theorem enter_insert {next : Location} {part : String}
    (free : tree.entry? location ≠ some .directory) (entered : tree.enter other part = .ok next) :
    (tree.insert location (.file content)).enter other part = .ok next := by
  by_cases named : Path.isName part = true
  · obtain ⟨same, isDirectory⟩ := (enter_eq_ok_iff named).mp entered
    exact (enter_eq_ok_iff named).mpr ⟨same, entry?_insert_directory free isDirectory⟩
  · have special : part = Path.here ∨ part = Path.up := by
      rwa [Path.isName_iff, not_and_or, not_not, not_not] at named
    unfold enter at entered ⊢
    rcases special with rfl | rfl
    · exact entered
    · exact entered

theorem foldlM_enter_insert {next : Location} (free : tree.entry? location ≠ some .directory)
    (parts : List String) (walked : parts.foldlM tree.enter other = .ok next) :
    parts.foldlM (tree.insert location (.file content)).enter other = .ok next := by
  induction parts generalizing other with
  | nil => exact walked
  | cons part rest ih =>
      rw [List.foldlM_cons] at walked ⊢
      obtain ⟨middle, entered, walked⟩ := bind_eq_ok_iff.mp walked
      rw [enter_insert free entered]
      exact ih walked

theorem LeadsTo.insert (leads : tree.LeadsTo text other)
    (free : tree.entry? location ≠ some .directory) :
    (tree.insert location (.file content)).LeadsTo text other where
  walks := foldlM_enter_insert free _ leads.walks
  isDirectory := entry?_insert_directory free leads.isDirectory

end Insert

/-! One file. -/

section Write

variable {directory name : String}

theorem LeadsTo.locate_child (leads : tree.LeadsTo directory location)
    (plain : Path.IsFileName name) :
    tree.locate (Path.ofText (Path.child directory name)) = .ok (location ++ [name], true) := by
  have last : ((Path.ofText directory).parts ++ [name]).getLast? = some name :=
    List.getLast?_concat ..
  rw [Path.ofText_child directory plain, locate]
  simp only [last, List.dropLast_concat]
  have walks := leads.walks
  rw [show tree.start ⟨(Path.ofText directory).fromRoot, _, false⟩ =
    tree.start (Path.ofText directory) from rfl, walks]
  simp [bind, Except.bind, plain.isName, pure, Except.pure]

theorem LeadsTo.writeFile_child (leads : tree.LeadsTo directory location)
    (plain : Path.IsFileName name) (free : tree.entry? (location ++ [name]) ≠ some .directory)
    (content : ByteArray) :
    tree.writeFile (Path.child directory name) content =
      .ok (tree.insert (location ++ [name]) (.file content)) := by
  have asFile : (Path.ofText (Path.child directory name)).asDirectory = false := by
    rw [Path.ofText_child directory plain]
  unfold writeFile
  simp only [leads.locate_child plain, asFile, bind, Except.bind, Bool.not_true, Bool.or_self,
    Bool.false_eq_true, if_false]
  rfl

end Write

/-! A directory that is there. -/

section Directory

variable {text : String}

theorem LeadsTo.exists_locate (leads : tree.LeadsTo text location) (nonempty : text ≠ "") :
    ∃ named, tree.locate (Path.ofText text) = .ok (location, named) := by
  have walks := leads.walks
  unfold locate
  cases last : (Path.ofText text).parts.getLast? with
  | none =>
      have noParts := List.getLast?_eq_none_iff.mp last
      have fromRoot := Path.fromRoot_of_parts nonempty noParts
      rw [noParts, start, if_pos fromRoot] at walks
      obtain rfl := Except.ok.inj walks
      exact ⟨false, if_pos fromRoot⟩
  | some name =>
      obtain ⟨init, split⟩ := List.getLast?_eq_some_iff.mp last
      rw [split, List.foldlM_append] at walks
      rw [split, List.dropLast_concat]
      obtain ⟨directory, outer, walks⟩ := bind_eq_ok_iff.mp walks
      have entered : (tree.enter directory name >>= pure) = .ok location := walks
      rw [bind_pure] at entered
      by_cases named : Path.isName name = true
      · obtain ⟨rfl, -⟩ := (enter_eq_ok_iff named).mp entered
        exact ⟨true, by simp [outer, bind, Except.bind, named, pure, Except.pure]⟩
      · exact ⟨false, by simp [outer, bind, Except.bind, named, entered, pure, Except.pure]⟩

theorem LeadsTo.makeDirectory (leads : tree.LeadsTo text location) (nonempty : text ≠ "") :
    tree.makeDirectory text = .error .alreadyExists := by
  obtain ⟨named, located⟩ := leads.exists_locate nonempty
  rw [FileTree.makeDirectory, located]
  simp [bind, Except.bind, leads.isDirectory, throw, throwThe, MonadExceptOf.throw]

theorem LeadsTo.isDirectory_text (leads : tree.LeadsTo text location) (nonempty : text ≠ "") :
    tree.isDirectory text = true := by
  obtain ⟨named, located⟩ := leads.exists_locate nonempty
  rw [FileTree.isDirectory, located]
  simp only [leads.isDirectory]

end Directory

/-! Several files. -/

/-- A tree after files were put into a directory in turn. -/
def addFiles (tree : FileTree) (location : Location) (files : List (String × String)) :
    FileTree :=
  files.foldl
    (fun tree (name, content) => tree.insert (location ++ [name]) (.file content.toUTF8)) tree

/-- The content that was written last under a name. -/
def written? (files : List (String × String)) (name : String) : Option String :=
  (files.findRev? fun (other, _) => other == name).map (·.2)

section Several

variable {directory : String} {files : List (String × String)}

theorem written?_cons (first : String × String) (name : String) :
    written? (first :: files) name =
      (written? files name).or (if first.1 = name then some first.2 else none) := by
  rw [written?, written?, List.findRev?_eq_find?_reverse, List.findRev?_eq_find?_reverse,
    List.reverse_cons, List.find?_append]
  cases List.find? _ files.reverse with
  | some pair => rfl
  | none =>
      by_cases same : first.1 = name
      · simp [same]
      · simp [same]

theorem entry?_insert_name (name other : String) (entry : Entry) :
    entry? (tree.insert (location ++ [name]) entry) (location ++ [other]) =
      if name = other then some entry else tree.entry? (location ++ [other]) := by
  rw [entry?_insert entry (by simp)]
  simp [eq_comm]

/-- In the directory stands what was written last under each name. -/
theorem entry?_addFiles (tree : FileTree) (location : Location) (files : List (String × String))
    (name : String) : entry? (tree.addFiles location files) (location ++ [name]) =
      ((written? files name).map fun content => .file content.toUTF8).or
        (tree.entry? (location ++ [name])) := by
  induction files generalizing tree with
  | nil => rfl
  | cons first rest ih =>
      rw [addFiles, List.foldl_cons, ← addFiles, ih, written?_cons, entry?_insert_name,
        Option.map_or, Option.or_assoc]
      split <;> rfl

theorem entry?_addFiles_of_ne (tree : FileTree) (files : List (String × String))
    (elsewhere : ∀ name ∈ files.map Prod.fst, other ≠ location ++ [name]) :
    entry? (tree.addFiles location files) other = tree.entry? other := by
  induction files generalizing tree with
  | nil => rfl
  | cons first rest ih =>
      obtain ⟨here, later⟩ := List.forall_mem_cons.mp elsewhere
      rw [addFiles, List.foldl_cons, ← addFiles, ih _ later, entry?_insert _ (by simp),
        if_neg here]

variable (input : ByteArray)

theorem attempt_ok {change : FileTree → Except FileError FileTree} {changed : FileTree}
    (possible : change tree = .ok changed) : (attempt change).run tree = (.ok (), changed) := by
  rw [show (attempt change).run tree = attempt change tree from rfl, attempt, possible]

theorem attempt_error {change : FileTree → Except FileError FileTree} {error : FileError}
    (refused : change tree = .error error) : (attempt change).run tree = (.error error, tree) := by
  rw [show (attempt change).run tree = attempt change tree from rfl, attempt, refused]

/-- Files are written in turn, whatever files are there already. -/
theorem LeadsTo.writeInto (leads : tree.LeadsTo directory location)
    (plain : ∀ name ∈ files.map Prod.fst, Path.IsFileName name)
    (free : ∀ name ∈ files.map Prod.fst, tree.entry? (location ++ [name]) ≠ some .directory) :
    ((host input).writeInto directory files).run tree =
      (.ok (), tree.addFiles location files) := by
  induction files generalizing tree with
  | nil => rfl
  | cons first rest ih =>
      obtain ⟨name, content⟩ := first
      obtain ⟨plainHere, plainLater⟩ := List.forall_mem_cons.mp plain
      obtain ⟨freeHere, freeLater⟩ := List.forall_mem_cons.mp free
      -- a file bars no way and takes only its own name, so the rest goes on in the new tree
      have wrote := leads.writeFile_child plainHere freeHere content.toUTF8
      have step : ((host input).writeFile (Path.child directory name) content.toUTF8).run tree =
          (.ok (), tree.insert (location ++ [name]) (.file content.toUTF8)) := attempt_ok wrote
      have stillFree : ∀ other ∈ rest.map Prod.fst,
          entry? (tree.insert (location ++ [name]) (.file content.toUTF8)) (location ++ [other]) ≠
            some .directory := by
        intro other member
        rw [entry?_insert_name]
        split
        · exact nofun
        · exact freeLater other member
      rw [Host.writeInto, StateT.run_bind, step]
      exact ih (leads.insert freeHere) plainLater stillFree

/-- A directory that is there is provided without a change. -/
theorem LeadsTo.provideChain (leads : tree.LeadsTo directory location) :
    ((host input).provideChain (Path.chain directory)).run tree = (.ok (), tree) := by
  by_cases empty : directory = ""
  · rw [Path.chain, if_pos empty]
    rfl
  · -- a directory cannot be made twice, but that it is there is all that is asked
    have refused : ((host input).makeDirectory directory).run tree =
        (.error .alreadyExists, tree) := attempt_error (leads.makeDirectory empty)
    have isThere : ((host input).isDirectory directory).run tree = (true, tree) := by
      rw [← leads.isDirectory_text empty]
      rfl
    rw [Path.chain, if_neg empty, Host.provideChain, StateT.run_bind, refused]
    change StateT.run (do
      return if ← (host input).isDirectory directory then Except.ok ()
        else Except.error FileError.alreadyExists) tree = _
    rw [StateT.run_bind, isThere]
    rfl

/-- Writing files into a directory that is there puts them there. -/
theorem LeadsTo.writeAll (leads : tree.LeadsTo directory location)
    (plain : ∀ name ∈ files.map Prod.fst, Path.IsFileName name)
    (free : ∀ name ∈ files.map Prod.fst, tree.entry? (location ++ [name]) ≠ some .directory) :
    ((host input).writeAll directory files).run tree =
      (.ok (), tree.addFiles location files) := by
  rw [Host.writeAll, StateT.run_bind, leads.provideChain input]
  exact leads.writeInto input plain free

end Several

end FileTree

end Wireframe
