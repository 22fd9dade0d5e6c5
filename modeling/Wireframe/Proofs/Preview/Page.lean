import Wireframe.Proofs.Preview.Boxes

/-! The preview page, read as a browser does. Its tags are nested, and what they are hangs on
the shapes of the scenes and on the number of diagnostics alone: no text is read as a tag. The
labels and the styles of the nodes come out as they went in. -/

namespace Wireframe

namespace Preview

open Html (Tag Token)

/-! What the tags of a page are, without the values of most attributes. -/

def sectionStart (number : Nat) : Tag :=
  .start "section" [("class", "luming-scene"), ("data-scene", toString number)]

def sceneTags (shapes : List Shape) : List Tag :=
  if shapes.isEmpty then [.start "p" [], .stop "p"]
  else (shapes.zipIdx 1).flatMap fun (shape, number) =>
    sectionStart number :: (shapeTags 0 shape ++ [.stop "section"])

def diagnosticTags (count : Nat) : List Tag :=
  if count = 0 then []
  else
    [.start "aside" [("class", "luming-diags")], .start "h2" [], .stop "h2", .start "ul" []] ++
      (List.replicate count [Tag.start "li" [], .stop "li"]).flatten ++ [.stop "ul", .stop "aside"]

/-- The tags of a page with scenes of some shapes and some number of diagnostics. -/
def skeleton (shapes : List Shape) (count : Nat) : List Tag :=
  [.declaration, .start "html" [("lang", "")], .start "head" [], .start "meta" [("charset", "")],
    .start "meta" [("name", ""), ("content", "")], .start "title" [], .stop "title",
    .start "style" [], .stop "style", .stop "head", .start "body" []] ++
    sceneTags shapes ++ diagnosticTags count ++ [.stop "body", .stop "html"]

/-! The page around the scenes. -/

section Page

variable {ι : Type} (settings : PreviewSettings)

theorem written_section (number : Nat) :
    Html.written [("class", "luming-scene"), ("data-scene", toString number)] =
      [("class", "luming-scene"), ("data-scene", toString number)] := by
  have plain : Html.escape "luming-scene" = "luming-scene" := by decide +kernel
  rw [Html.written_cons, Html.written_cons, plain, Html.escape_toString]
  rfl

theorem readable_sceneSection (number : Nat) (scene : Layout ι) :
    (sceneSection settings number scene).Readable := by
  have keys : ∀ key ∈ ["class", "data-scene"], Html.IsName key := by decide +kernel
  exact ⟨by decide +kernel, by decide, List.forall_mem_map.mp keys,
    readable_layoutBox settings 0 scene, trivial⟩

theorem readable_sceneSections (scenes : List (Layout ι)) :
    Html.ReadableAll (sceneSections settings scenes) := by
  rw [sceneSections]
  split
  · exact ⟨⟨by decide +kernel, by decide, nofun, trivial, trivial⟩, trivial⟩
  · apply Html.readableAll_intersperse
    rw [Html.readableAll_iff, List.forall_mem_map]
    exact fun (scene, number) _ => readable_sceneSection settings number scene

theorem readable_diagnosticList (diagnostics : List Diagnostic) :
    Html.ReadableAll (diagnosticList diagnostics) := by
  have keys : ∀ key ∈ ["class"], Html.IsName key := by decide +kernel
  have items : Html.ReadableAll (diagnostics.map diagnosticItem) := by
    rw [Html.readableAll_iff, List.forall_mem_map]
    exact fun _ _ => ⟨by decide +kernel, by decide, nofun, trivial, trivial⟩
  rw [diagnosticList]
  split
  · trivial
  · exact ⟨⟨by decide +kernel, by decide, List.forall_mem_map.mp keys,
      ⟨by decide +kernel, by decide, nofun, trivial, trivial⟩,
      ⟨by decide +kernel, by decide, nofun, items⟩, trivial⟩, trivial⟩

/-- A literal is compared by its characters, which is quicker than by its bytes. -/
theorem notMem_of_chars {text : String} {chars : List Char} {c : Char}
    (same : text = String.ofList chars) (absent : c ∉ chars) : c ∉ text.toList := by
  rwa [same, String.toList_ofList]

theorem notMem_styleSheet : '<' ∉ styleSheet.toList := by
  unfold styleSheet
  simp only [String.toList_append, List.mem_append, not_or]
  refine ⟨⟨⟨⟨⟨?_, ?_⟩, ?_⟩, ?_⟩, ?_⟩, ?_⟩ <;> exact notMem_of_chars rfl (by decide +kernel)

theorem readable_head : (head settings).Readable := by
  have plain : '<' ∉ ("\n" ++ styleSheet ++ "\n    ").toList := by
    simp only [String.toList_append, List.mem_append, not_or]
    exact ⟨⟨by simp, notMem_styleSheet⟩, by simp⟩
  have charset : ∀ key ∈ ["charset"], Html.IsName key := by decide +kernel
  have viewport : ∀ key ∈ ["name", "content"], Html.IsName key := by decide +kernel
  exact ⟨by decide +kernel, by decide, nofun, trivial,
    ⟨by decide +kernel, by decide, List.forall_mem_map.mp charset⟩, trivial,
    ⟨by decide +kernel, by decide, List.forall_mem_map.mp viewport⟩, trivial,
    ⟨by decide +kernel, by decide, nofun, trivial, trivial⟩, trivial,
    ⟨by decide +kernel, by decide, nofun, plain, trivial⟩, trivial, trivial⟩

theorem readable_page (scenes : List (Layout ι)) (diagnostics : List Diagnostic) :
    (page settings scenes diagnostics).Readable := by
  have language : ∀ key ∈ ["lang"], Html.IsName key := by decide +kernel
  have inside : Html.ReadableAll ([.text "\n    "] ++ sceneSections settings scenes ++
      [.text "\n    "] ++ diagnosticList diagnostics ++ [.text "\n  "]) := by
    simp only [Html.readableAll_append]
    exact ⟨⟨⟨⟨⟨trivial, trivial⟩, readable_sceneSections settings scenes⟩, trivial, trivial⟩,
      readable_diagnosticList diagnostics⟩, trivial, trivial⟩
  exact ⟨by decide +kernel, by decide, List.forall_mem_map.mp language, trivial,
    readable_head settings, trivial, ⟨by decide +kernel, by decide, nofun, inside⟩, trivial,
    trivial⟩

theorem reads_doctype : Html.Reads .text "<!doctype html>\n".toList
    [.tag .declaration, .char '\n'] .text := by
  have chars : "<!doctype html>\n".toList =
      '<' :: '!' :: ("doctype html".toList ++ ['>', '\n']) := by simp
  have inside : Html.Reads .declaration "doctype html".toList [] .declaration := by
    have stepped : ∀ c ∈ "doctype html".toList, ∀ before : List Char,
        Html.step ((fun _ => .declaration) before) c = ([], .declaration) := by simp [Html.step]
    exact Html.Reads.collect stepped []
  have closed : Html.Reads .declaration ['>', '\n'] [.tag .declaration, .char '\n'] .text :=
    (Html.Reads.single rfl).append (.single rfl)
  rw [chars]
  exact .cons rfl (.cons rfl (inside.append closed))

/-- The whole text is read as the page, after its declaration. -/
theorem read_print (scenes : List (Layout ι)) (diagnostics : List Diagnostic) :
    Html.read (print settings scenes diagnostics) = .tag .declaration :: .char '\n' ::
      ((page settings scenes diagnostics).tokens ++ [.char '\n']) := by
  have ending : Html.Reads .text "\n".toList [.char '\n'] .text := .single rfl
  have whole := (reads_doctype.append
    (Html.reads_print _ (readable_page settings scenes diagnostics))).append ending
  have text : print settings scenes diagnostics =
      "<!doctype html>\n" ++ (page settings scenes diagnostics).print ++ "\n" := rfl
  apply Html.Reads.read
  rw [text, String.toList_append, String.toList_append]
  exact whole

def pageStart : List Tag :=
  [.declaration, .start "html" (Html.written [("lang", "en")]), .start "head" [],
    .start "meta" (Html.written [("charset", "utf-8")]),
    .start "meta" (Html.written [("name", "viewport"),
      ("content", "width=device-width, initial-scale=1")]),
    .start "title" [], .stop "title", .start "style" [], .stop "style", .stop "head",
    .start "body" []]

theorem flatMap_zipIdx {α β : Type} (items : List α) (start : Nat) (each : α → List β) :
    (items.zipIdx start).flatMap (fun numbered => each numbered.1) = items.flatMap each := by
  rw [← List.flatMap_map Prod.fst each, List.zipIdx_map_fst]

theorem tags_map {α : Type} (items : List α) (write : α → Html) :
    Html.tags (Html.tokensAll (items.map write)) =
      items.flatMap fun item => Html.tags (write item).tokens := by
  induction items with
  | nil => rfl
  | cons item rest ih => rw [List.map_cons, Html.tags_cons, ih, List.flatMap_cons]

theorem tags_diagnosticItem (diagnostic : Diagnostic) :
    Html.tags (diagnosticItem diagnostic).tokens = [.start "li" [], .stop "li"] := by
  rw [diagnosticItem, Html.tags_element, Html.tags_cons, Html.tags_text]
  rfl

theorem tags_diagnosticList (diagnostics : List Diagnostic) :
    Html.tags (Html.tokensAll (diagnosticList diagnostics)) =
      diagnosticTags diagnostics.length := by
  have items : Html.tags (Html.tokensAll (diagnostics.map diagnosticItem)) =
      (List.replicate diagnostics.length [Tag.start "li" [], .stop "li"]).flatten := by
    rw [tags_map, List.flatMap_congr fun item _ => tags_diagnosticItem item, List.flatMap_def,
      List.map_const']
  have written : Html.written [("class", "luming-diags")] = [("class", "luming-diags")] := by
    decide +kernel
  rw [diagnosticList, diagnosticTags]
  cases diagnostics with
  | nil => rfl
  | cons first rest =>
      rw [if_neg (by simp), if_neg (by simp), Html.tags_cons, Html.tags_element, Html.tags_cons,
        Html.tags_element, Html.tags_cons, Html.tags_text, Html.tags_cons, Html.tags_element, items,
        written]
      simp [Html.tags, Html.tokensAll, Html.written]

theorem tags_head : Html.tags (head settings).tokens =
    [.start "head" [], .start "meta" (Html.written [("charset", "utf-8")]),
      .start "meta" (Html.written [("name", "viewport"),
        ("content", "width=device-width, initial-scale=1")]),
      .start "title" [], .stop "title", .start "style" [], .stop "style", .stop "head"] := by
  simp only [head, Html.tags_element, Html.tags_cons, Html.tags_text, Html.tags_void,
    Html.tags_verbatim]
  rfl

theorem tags_body (scenes : List (Layout ι)) (diagnostics : List Diagnostic) :
    Html.tags (body settings scenes diagnostics).tokens =
      .start "body" [] :: (Html.tags (Html.tokensAll (sceneSections settings scenes)) ++
        (diagnosticTags diagnostics.length ++ [.stop "body"])) := by
  simp only [body, Html.tags_element, Html.tokensAll_append, Html.tags_append, Html.tags_cons,
    Html.tags_text, Html.tags_nil, tags_diagnosticList, List.nil_append, List.append_nil,
    List.append_assoc]
  rfl

theorem tags_read_print (scenes : List (Layout ι)) (diagnostics : List Diagnostic) :
    Html.tags (Html.read (print settings scenes diagnostics)) =
      .declaration :: Html.tags (page settings scenes diagnostics).tokens := by
  rw [read_print, ← List.append_nil (Html.tags (page settings scenes diagnostics).tokens)]
  exact congrArg (.declaration :: ·) (Html.tags_append _ _)

theorem tags_print (scenes : List (Layout ι)) (diagnostics : List Diagnostic) :
    Html.tags (Html.read (print settings scenes diagnostics)) =
      pageStart ++ (Html.tags (Html.tokensAll (sceneSections settings scenes)) ++
        (diagnosticTags diagnostics.length ++ [.stop "body", .stop "html"])) := by
  simp only [tags_read_print, page, Html.tags_element, Html.tags_cons, Html.tags_text,
    Html.tags_nil, tags_head, tags_body, List.nil_append, List.append_nil, List.append_assoc,
    List.cons_append]
  rfl

/-! What the tags of the scenes come to. -/

theorem tags_sceneSection (number : Nat) (scene : Layout ι) :
    Html.tags (sceneSection settings number scene).tokens =
      sectionStart number :: (Html.tags (layoutBox settings 0 scene).tokens ++
        [.stop "section"]) := by
  rw [sceneSection, Html.tags_element, written_section, Html.tags_cons, Html.tags_nil,
    List.append_nil]
  rfl

theorem tags_sceneSections (scenes : List (Layout ι)) :
    Html.tags (Html.tokensAll (sceneSections settings scenes)) =
      if scenes.isEmpty then [.start "p" [], .stop "p"]
      else (scenes.zipIdx 1).flatMap fun (scene, number) =>
        sectionStart number :: (Html.tags (layoutBox settings 0 scene).tokens ++
          [.stop "section"]) := by
  rw [sceneSections]
  split
  · rw [Html.tags_cons, Html.tags_element, Html.tags_cons, Html.tags_text]
    rfl
  · rw [Html.tags_intersperse, tags_map]
    exact List.flatMap_congr fun (scene, number) _ => tags_sceneSection settings number scene

theorem map_blank_sceneSections (scenes : List (Layout ι)) :
    (Html.tags (Html.tokensAll (sceneSections settings scenes))).map blank =
      sceneTags (scenes.map Layout.shape) := by
  have each (number : Nat) (scene : Layout ι) :
      (sectionStart number :: (Html.tags (layoutBox settings 0 scene).tokens ++
        [.stop "section"])).map blank =
      sectionStart number :: (shapeTags 0 scene.shape ++ [.stop "section"]) := by
    rw [List.map_cons, List.map_append, map_blank_layoutBox]
    rfl
  rw [tags_sceneSections, sceneTags]
  cases scenes with
  | nil => rfl
  | cons first rest =>
      rw [if_neg (by simp), if_neg (by simp), List.map_flatMap, List.zipIdx_map, List.flatMap_map]
      exact List.flatMap_congr fun (scene, number) _ => each number scene

theorem map_blank_diagnosticTags (count : Nat) :
    (diagnosticTags count).map blank = diagnosticTags count := by
  rw [diagnosticTags]
  split
  · rfl
  · simp [blank, List.map_flatten]

/-- Without their values the tags of a page are those of the shapes of the scenes and the number
of diagnostics. -/
theorem map_blank_print (scenes : List (Layout ι)) (diagnostics : List Diagnostic) :
    (Html.tags (Html.read (print settings scenes diagnostics))).map blank =
      skeleton (scenes.map Layout.shape) diagnostics.length := by
  rw [tags_print, List.map_append, List.map_append, List.map_append, map_blank_sceneSections,
    map_blank_diagnosticTags, skeleton, List.append_assoc, List.append_assoc]
  rfl

/-- The tags of a page that are the same whatever it shows. -/
def frame : List Tag :=
  pageStart ++ [.start "p" [], .stop "p", .stop "section",
    .start "aside" [("class", "luming-diags")], .start "h2" [], .stop "h2", .start "ul" [],
    .stop "li", .stop "ul", .stop "aside", .stop "body", .stop "html"]

section Filter

variable {keep : Tag → Bool} (unframed : ∀ tag ∈ frame, keep tag = false)
include unframed

theorem filter_of_subset {part : List Tag} (inFrame : part ⊆ frame) : part.filter keep = [] := by
  rw [List.filter_eq_nil_iff]
  intro tag member
  rw [unframed tag (inFrame member)]
  exact Bool.false_ne_true

theorem filter_diagnosticTags (count : Nat) :
    (diagnosticTags count).filter keep = (List.replicate count (.start "li" [])).filter keep := by
  have start : [Tag.start "aside" [("class", "luming-diags")], .start "h2" [], .stop "h2",
      .start "ul" []].filter keep = [] := filter_of_subset unframed (by decide +kernel)
  have stop : [Tag.stop "ul", .stop "aside"].filter keep = [] :=
    filter_of_subset unframed (by decide +kernel)
  have item : [Tag.start "li" [], .stop "li"].filter keep = [Tag.start "li" []].filter keep := by
    have closer : [Tag.stop "li"].filter keep = [] := filter_of_subset unframed (by decide +kernel)
    have apart : [Tag.start "li" [], .stop "li"] = [.start "li" []] ++ [.stop "li"] := rfl
    rw [apart, List.filter_append, closer, List.append_nil]
  have items : (List.replicate count [Tag.start "li" [], .stop "li"]).flatten.filter keep =
      (List.replicate count (.start "li" [])).filter keep := by
    induction count with
    | zero => rfl
    | succ count ih =>
        rw [List.replicate_succ, List.flatten_cons, List.filter_append, item, ih]
        exact (List.filter_append [Tag.start "li" []] _).symm
  cases count with
  | zero => rfl
  | succ count =>
      rw [diagnosticTags, if_neg (Nat.succ_ne_zero count), List.filter_append, List.filter_append,
        items, start, stop, List.nil_append, List.append_nil]

theorem filter_sceneSections (scenes : List (Layout ι)) :
    (Html.tags (Html.tokensAll (sceneSections settings scenes))).filter keep =
      (scenes.zipIdx 1).flatMap fun (scene, number) =>
        [sectionStart number].filter keep ++
          (Html.tags (layoutBox settings 0 scene).tokens).filter keep := by
  have none : [Tag.start "p" [], .stop "p"].filter keep = [] :=
    filter_of_subset unframed (by decide +kernel)
  have stop : [Tag.stop "section"].filter keep = [] :=
    filter_of_subset unframed (by decide +kernel)
  have each (number : Nat) (scene : Layout ι) :
      (sectionStart number :: (Html.tags (layoutBox settings 0 scene).tokens ++
        [.stop "section"])).filter keep =
      [sectionStart number].filter keep ++
        (Html.tags (layoutBox settings 0 scene).tokens).filter keep := by
    rw [← List.singleton_append, List.filter_append, List.filter_append, stop, List.append_nil]
  rw [tags_sceneSections]
  cases scenes with
  | nil => exact none
  | cons first rest =>
      rw [if_neg (by simp), List.filter_flatMap]
      exact List.flatMap_congr fun (scene, number) _ => each number scene

/-- Tags other than those that are always there come from the scenes and the diagnostics. -/
theorem filter_print (scenes : List (Layout ι)) (diagnostics : List Diagnostic) :
    (Html.tags (Html.read (print settings scenes diagnostics))).filter keep =
      ((scenes.zipIdx 1).flatMap fun (scene, number) =>
        [sectionStart number].filter keep ++
          (Html.tags (layoutBox settings 0 scene).tokens).filter keep) ++
      (List.replicate diagnostics.length (.start "li" [])).filter keep := by
  have start : pageStart.filter keep = [] :=
    filter_of_subset unframed (List.subset_append_left _ _)
  have stop : [Tag.stop "body", .stop "html"].filter keep = [] :=
    filter_of_subset unframed (by decide +kernel)
  rw [tags_print, List.filter_append, List.filter_append, List.filter_append,
    filter_sceneSections settings unframed, filter_diagnosticTags unframed, start, stop,
    List.nil_append, List.append_nil]

theorem filter_print_layouts (notSection : ∀ number, keep (sectionStart number) = false)
    (notItem : keep (.start "li" []) = false) (scenes : List (Layout ι))
    (diagnostics : List Diagnostic) :
    (Html.tags (Html.read (print settings scenes diagnostics))).filter keep =
      scenes.flatMap fun scene => (Html.tags (layoutBox settings 0 scene).tokens).filter keep := by
  have items : (List.replicate diagnostics.length (Tag.start "li" [])).filter keep = [] := by
    simp [notItem]
  have each (number : Nat) (scene : Layout ι) :
      [sectionStart number].filter keep ++
        (Html.tags (layoutBox settings 0 scene).tokens).filter keep =
      (Html.tags (layoutBox settings 0 scene).tokens).filter keep := by
    rw [List.filter_cons_of_neg (by simp [notSection])]
    rfl
  rw [filter_print settings unframed, items, List.append_nil, ← flatMap_zipIdx scenes 1]
  exact List.flatMap_congr fun (scene, number) _ => each number scene

end Filter

theorem hasClass_section (number : Nat) (name : String) :
    (sectionStart number).hasClass name = ("luming-scene" == name) :=
  Tag.hasClass_eq rfl (by decide +kernel) name

theorem filter_node_print (scenes : List (Layout ι)) (diagnostics : List Diagnostic) :
    (Html.tags (Html.read (print settings scenes diagnostics))).filter
        (·.hasClass "luming-node") =
      (scenes.flatMap (Layout.surrounded [])).map fun (node, around) =>
        nodeStart settings around.length node := by
  have unframed : ∀ tag ∈ frame, tag.hasClass "luming-node" = false := by decide +kernel
  have notSection (number : Nat) : (sectionStart number).hasClass "luming-node" = false := by
    rw [hasClass_section]
    decide
  rw [filter_print_layouts settings unframed notSection rfl, List.map_flatMap]
  exact List.flatMap_congr fun scene _ => filter_node_layoutBox settings [] scene

theorem length_filter_group_print (scenes : List (Layout ι)) (diagnostics : List Diagnostic) :
    ((Html.tags (Html.read (print settings scenes diagnostics))).filter
        (·.hasClass "luming-group")).length = Layout.groupsAll scenes := by
  have unframed : ∀ tag ∈ frame, tag.hasClass "luming-group" = false := by decide +kernel
  have notSection (number : Nat) : (sectionStart number).hasClass "luming-group" = false := by
    rw [hasClass_section]
    decide
  rw [filter_print_layouts settings unframed notSection rfl]
  induction scenes with
  | nil => rfl
  | cons scene rest ih =>
      rw [List.flatMap_cons, List.length_append, length_filter_group_layoutBox, ih]
      rfl

theorem filter_section_print (scenes : List (Layout ι)) (diagnostics : List Diagnostic) :
    (Html.tags (Html.read (print settings scenes diagnostics))).filter (·.opens "section") =
      (List.range' 1 scenes.length).map sectionStart := by
  have unframed : ∀ tag ∈ frame, tag.opens "section" = false := by decide +kernel
  have items : (List.replicate diagnostics.length (Tag.start "li" [])).filter
      (·.opens "section") = [] := by
    simp [Tag.opens]
  have each (number : Nat) (scene : Layout ι) :
      [sectionStart number].filter (·.opens "section") ++
        (Html.tags (layoutBox settings 0 scene).tokens).filter (·.opens "section") =
      [sectionStart number] := by
    rw [filter_opens_layoutBox settings (by decide) 0 scene]
    rfl
  have numbers : ((scenes.zipIdx 1).flatMap fun (scene, number) =>
      [sectionStart number].filter (·.opens "section") ++
        (Html.tags (layoutBox settings 0 scene).tokens).filter (·.opens "section")) =
      (scenes.zipIdx 1).map fun numbered => sectionStart numbered.2 := by
    rw [List.map_eq_flatMap]
    exact List.flatMap_congr fun (scene, number) _ => each number scene
  rw [filter_print settings unframed, items, List.append_nil, numbers,
    ← List.zipIdx_map_snd 1 scenes, List.map_map]
  rfl

theorem filter_item_print (scenes : List (Layout ι)) (diagnostics : List Diagnostic) :
    (Html.tags (Html.read (print settings scenes diagnostics))).filter (·.opens "li") =
      List.replicate diagnostics.length (.start "li" []) := by
  have unframed : ∀ tag ∈ frame, tag.opens "li" = false := by decide +kernel
  have each (number : Nat) (scene : Layout ι) :
      [sectionStart number].filter (·.opens "li") ++
        (Html.tags (layoutBox settings 0 scene).tokens).filter (·.opens "li") = [] := by
    rw [filter_opens_layoutBox settings (by decide) 0 scene]
    rfl
  have none : ((scenes.zipIdx 1).flatMap fun (scene, number) =>
      [sectionStart number].filter (·.opens "li") ++
        (Html.tags (layoutBox settings 0 scene).tokens).filter (·.opens "li")) = [] :=
    List.flatMap_eq_nil_iff.mpr fun (scene, number) _ => each number scene
  rw [filter_print settings unframed, none, List.nil_append]
  simp [Tag.opens]

/-! The labels of a page. -/

theorem kept_of_ne {name : String} (other : "div" ≠ name) (attributes : List (String × String))
    (children : List Html) :
    (Html.element name attributes children).kept isLabel = Html.keptAll isLabel children := by
  rw [Html.kept, if_neg]
  simp [isLabel, Tag.opens, other]

theorem kept_sceneSection (number : Nat) (scene : Layout ι) :
    (sceneSection settings number scene).kept isLabel =
      scene.nodes.map fun node => Html.escape (label settings node) := by
  rw [sceneSection, kept_of_ne (by decide), Html.keptAll, Html.keptAll, List.append_nil,
    kept_layoutBox]

theorem keptAll_sceneSections (scenes : List (Layout ι)) :
    Html.keptAll isLabel (sceneSections settings scenes) =
      (scenes.flatMap Layout.nodes).map fun node => Html.escape (label settings node) := by
  rw [sceneSections]
  cases scenes with
  | nil => rfl
  | cons first rest =>
      rw [if_neg (by simp), Html.keptAll_intersperse, Html.keptAll_eq_flatMap, List.flatMap_map,
        List.map_flatMap, ← flatMap_zipIdx (first :: rest) 1]
      exact List.flatMap_congr fun (scene, number) _ => kept_sceneSection settings number scene

theorem keptAll_diagnosticList (diagnostics : List Diagnostic) :
    Html.keptAll isLabel (diagnosticList diagnostics) = [] := by
  have items : Html.keptAll isLabel (diagnostics.map diagnosticItem) = [] := by
    rw [Html.keptAll_eq_flatMap, List.flatMap_map, List.flatMap_eq_nil_iff]
    intro diagnostic _
    rw [diagnosticItem, kept_of_ne (by decide)]
    rfl
  have heading : (Html.element "h2" [] [.text "Diagnostics"]).kept isLabel = [] := rfl
  have list : (Html.element "ul" [] (diagnostics.map diagnosticItem)).kept isLabel = [] :=
    (kept_of_ne (by decide) [] _).trans items
  rw [diagnosticList]
  split
  · rfl
  · rw [Html.keptAll, kept_of_ne (by decide)]
    simp only [Html.keptAll, heading, list, List.append_nil]

theorem texts_print (scenes : List (Layout ι)) (diagnostics : List Diagnostic) :
    Html.texts isLabel (Html.read (print settings scenes diagnostics)) =
      (scenes.flatMap Layout.nodes).map fun node => Html.escape (label settings node) := by
  have inHead : (head settings).kept isLabel = [] := rfl
  have inBody : (body settings scenes diagnostics).kept isLabel =
      Html.keptAll isLabel (sceneSections settings scenes) := by
    rw [body, kept_of_ne (by decide), Html.keptAll_append, Html.keptAll_append,
      Html.keptAll_append, Html.keptAll_append, keptAll_diagnosticList]
    simp only [Html.keptAll, Html.kept, List.append_nil, List.nil_append]
  have inPage : (page settings scenes diagnostics).kept isLabel =
      (body settings scenes diagnostics).kept isLabel := by
    rw [page, kept_of_ne (by decide)]
    simp only [Html.keptAll, inHead, Html.kept, List.append_nil, List.nil_append]
  have declared (rest : List Token) : Html.texts isLabel (.tag .declaration :: .char '\n' :: rest) =
      Html.texts isLabel rest := rfl
  rw [read_print, declared, Html.texts_tokens encloses_isLabel _ _
    (readable_page settings scenes diagnostics), inPage, inBody, keptAll_sceneSections]
  exact List.append_nil _

end Page

/-- The text of a page has the tags that the shapes of its scenes and the number of its
diagnostics ask for, and no others: they are nested, the sections are numbered from one, every
node has a box at the level of the number of nodes around it, every group has a box, and every
diagnostic an item. The labels read as the templates of the nodes, with a remark if a node is
terminated, and the styles of their boxes as the declarations that every node starts from with
those of the node written over them. -/
theorem markup_from_shapes {ι : Type} (settings : PreviewSettings) (scenes : List (Layout ι))
    (diagnostics : List Diagnostic) :
    let tokens := Html.read (print settings scenes diagnostics)
    let tags := Html.tags tokens
    let nodes := scenes.flatMap (Layout.surrounded [])
    let nodeTags := tags.filter (·.hasClass "luming-node")
    Html.nests [] tags ∧
    tags.map blank = skeleton (scenes.map Layout.shape) diagnostics.length ∧
    tags.filter (·.opens "section") = (List.range' 1 scenes.length).map (fun number =>
      .start "section" [("class", "luming-scene"), ("data-scene", toString number)]) ∧
    nodes.map Prod.fst = scenes.flatMap Layout.nodes ∧
    nodeTags.map blank = nodes.map (fun (_, around) =>
      .start "div" [("class", "luming-node level-" ++ toString around.length), ("style", "")]) ∧
    (tags.filter (·.hasClass "luming-group")).length = Layout.groupsAll scenes ∧
    (tags.filter (·.opens "li")).length = diagnostics.length ∧
    (Html.texts isLabel tokens).map Html.unescape = nodes.map (fun (node, _) =>
      node.template ++ if node.terminated then " (" ++ settings.terminusLabel ++ ")" else "") ∧
    nodeTags.map (fun tag => (tag.attribute? "style").map Html.unescape) =
      nodes.map (fun (node, _) => some (" ".intercalate
        ((settings.nodeStyles.overlay node.styles).declarations.map fun declaration =>
          declaration.key ++ ": " ++ declaration.value ++ ";"))) ∧
    ∀ styles : StyleMap,
      (settings.nodeStyles.overlay styles).declarations.Pairwise (·.key < ·.key) ∧
      ∀ key, (settings.nodeStyles.overlay styles).get? key =
        (styles.get? key).or (settings.nodeStyles.get? key) := by
  intro tokens tags nodes nodeTags
  have found : nodeTags = nodes.map fun (node, around) => nodeStart settings around.length node :=
    filter_node_print settings scenes diagnostics
  have order : nodes.map Prod.fst = scenes.flatMap Layout.nodes := by
    rw [List.map_flatMap]
    exact List.flatMap_congr fun scene _ => Layout.map_fst_surrounded [] scene
  refine ⟨?nested, map_blank_print settings scenes diagnostics,
    filter_section_print settings scenes diagnostics, order, ?levels,
    length_filter_group_print settings scenes diagnostics, ?items, ?labels, ?styles, ?overlay⟩
  case nested =>
    have inside := Html.nests_tokens [] [] (page settings scenes diagnostics)
      (readable_page settings scenes diagnostics)
    rw [List.append_nil] at inside
    rw [show tags = _ from tags_read_print settings scenes diagnostics]
    exact inside
  case levels =>
    rw [found, List.map_map]
    rfl
  case items =>
    rw [filter_item_print, List.length_replicate]
  case labels =>
    rw [texts_print, ← order, List.map_map, List.map_map]
    exact List.map_congr_left fun (node, _) _ => Html.unescape_escape (label settings node)
  case styles =>
    rw [found, List.map_map]
    exact List.map_congr_left fun (node, _) _ =>
      congrArg some (Html.unescape_escape (inlineStyle (settings.nodeStyles.overlay node.styles)))
  case overlay =>
    exact fun styles => ⟨(settings.nodeStyles.overlay styles).sorted,
      StyleMap.get?_overlay settings.nodeStyles styles⟩

end Preview

end Wireframe
