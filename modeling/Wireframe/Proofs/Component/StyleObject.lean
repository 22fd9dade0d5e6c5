import Wireframe.Proofs.Component.Script
import Wireframe.Proofs.Json

/-! The style object of a component. In braces, the lines between the tag that it stands in
and the end of that tag are an object in JSON, whose fields are the declarations. -/

namespace Wireframe

namespace StyleMap

/-- Each key with its value, in order. -/
def fields (styles : StyleMap) : List (String × String) :=
  styles.declarations.map fun declaration => (declaration.key, declaration.value)

theorem fields_injective : Function.Injective fields := by
  intro styles other same
  have back : Function.LeftInverse (fun field : String × String => Declaration.mk field.1 field.2)
      (fun declaration => (declaration.key, declaration.value)) := fun _ => rfl
  have equal : styles.declarations = other.declarations :=
    List.map_injective_iff.mpr back.injective same
  cases styles
  cases other
  congr

theorem nodup_keys (styles : StyleMap) : (styles.fields.map Prod.fst).Nodup := by
  have keys : styles.fields.map Prod.fst = styles.declarations.map Declaration.key := by
    rw [fields, List.map_map]
    rfl
  rw [keys]
  exact List.pairwise_map.mpr (styles.sorted.imp fun less => String.ne_of_lt less)

end StyleMap

namespace Component

/-- The text of lines that each end in a line feed. -/
def ended (lines : List String) : String :=
  String.ofList ((lines.map String.toList).flatMap (· ++ ['\n']))

def styleOpener : String :=
  "    <section style=\x7b\x7b"

def styleCloser : String :=
  "    \x7d\x7d>"

/-- What stands between the first line that opens a style object and the next that closes
one, in braces. -/
def styleObject (content : String) : String :=
  "\x7b" ++
    ended ((between styleOpener styleCloser (content.toList.splitOn '\n')).map String.ofList) ++
    "\x7d"

theorem toList_ended (lines : List String) :
    (ended lines).toList = (lines.map String.toList).flatMap (· ++ ['\n']) :=
  String.toList_ofList

theorem ended_append (first second : List String) :
    ended (first ++ second) = ended first ++ ended second := by
  simp [ended]

theorem content_eq_ended (framework : Framework) (template : Template) :
    (file framework template).content = ended (fileLines framework template) := by
  rw [← String.toList_inj, toList_content, toList_ended]

/-! The fields of the object are the declarations. -/

theorem toList_reactStyle (declaration : Declaration) :
    (reactStyle declaration).toList =
      Json.fieldText "      ".toList (declaration.key, declaration.value) := by
  simp [reactStyle, Json.fieldText]

theorem ended_reactStyles (first : Declaration) (later : List Declaration) :
    (ended (reactStyles (first :: later))).toList =
      Json.objectText "      ".toList "\n      ".toList ['\n']
        ((first :: later).map fun declaration => (declaration.key, declaration.value)) := by
  induction later generalizing first with
  | nil => simp [ended, reactStyles, toList_reactStyle, Json.objectText]
  | cons second others ih =>
      have rest := ih second
      rw [List.map_cons, Json.objectText] at rest
      have lines : reactStyles (first :: second :: others) =
          [reactStyle first ++ ","] ++ reactStyles (second :: others) := rfl
      rw [lines, ended_append, String.toList_append, rest]
      simp [ended, toList_reactStyle, Json.objectText, Json.fieldText]

theorem fields?_reactStyles (styles : StyleMap) :
    Json.fields? ("\x7b" ++ ended (reactStyles styles.declarations) ++ "\x7d") =
      some styles.fields := by
  have braces (text : String) :
      "\x7b" ++ text ++ "\x7d" = String.ofList ('\x7b' :: (text.toList ++ ['\x7d'])) := by
    rw [← String.toList_inj]
    simp
  have lead : ∀ c ∈ "      ".toList, Json.Grammar.isGap c := by simp [Json.Grammar.isGap]
  have next : ∀ c ∈ "\n      ".toList, Json.Grammar.isGap c := by simp [Json.Grammar.isGap]
  have trail : ∀ c ∈ ['\n'], Json.Grammar.isGap c := by simp [Json.Grammar.isGap]
  rw [braces, StyleMap.fields]
  cases styles.declarations with
  | nil => exact Json.fields?_objectText lead next (List.forall_mem_nil _) []
  | cons first later =>
      rw [ended_reactStyles]
      exact Json.fields?_objectText lead next trail _

/-! The lines of the object in those of the file. -/

section Lines

variable (template : Template)

def linesAhead : List String :=
  ["import React from 'react';"] ++ (dependencies template).map reactImport ++
    ["", "export function " ++ capitalize template.name ++ "() \x7b", "  return ("]

def linesBehind : List String :=
  markup .react 3 template.content ++ ["    </section>", "  );", "\x7d"]

theorem fileLines_react (styles : StyleMap) :
    fileLines .react { template with styles := styles } =
      linesAhead template ++ styleOpener ::
        (reactStyles styles.declarations ++ styleCloser :: linesBehind template) := by
  simp [fileLines, reactLines, linesAhead, linesBehind, styleOpener, styleCloser, dependencies]

end Lines

variable {template : Template}

theorem styleCloser_notMem_reactStyles (declarations : List Declaration) :
    styleCloser ∉ reactStyles declarations := by
  intro closed
  have begins := (forall_mem_reactStyles declarations styleCloser closed).2
  exact absurd begins (by decide)

theorem styleOpener_notMem_linesAhead : styleOpener ∉ linesAhead template := by
  have imported : styleOpener ∉ (dependencies template).map reactImport := by
    rw [List.mem_map]
    rintro ⟨name, -, same⟩
    have first := congrArg (·.toList.head?) same
    simp [reactImport, styleOpener] at first
  have exported (name : String) : styleOpener ≠ "export function " ++ name ++ "() \x7b" := by
    intro same
    have first := congrArg (·.toList.head?) same
    simp [styleOpener] at first
  simp only [linesAhead, List.mem_append, List.mem_cons, List.not_mem_nil, or_false]
  rintro ((react | dependency) | blank | function | returned)
  · exact absurd react (by decide)
  · exact imported dependency
  · exact absurd blank (by decide)
  · exact exported _ function
  · exact absurd returned (by decide)

theorem styleObject_file (named : Named template) :
    styleObject (file .react template).content =
      "\x7b" ++ ended (reactStyles template.styles.declarations) ++ "\x7d" := by
  have lines := fileLines_react template template.styles
  have begins : linesAhead template ++ styleOpener ::
      (reactStyles template.styles.declarations ++ [styleCloser]) <+: fileLines .react template :=
    ⟨linesBehind template, by simp [lines]⟩
  have single : ∀ line ∈ linesAhead template ++ styleOpener ::
      (reactStyles template.styles.declarations ++ [styleCloser]), IsLine line :=
    fun line member => forall_mem_reactLines named line (begins.subset member)
  have read := between_content begins single styleOpener_notMem_linesAhead
    (styleCloser_notMem_reactStyles _)
  rw [styleObject, read]
  simp [Function.comp_def]

/-- Whatever the styles are, a component is the same lines around an object in JSON that has
the declarations as its fields, in order and each once. Where the names are plain the object
is what stands between the first lines that open and close one. Other styles make another
file. -/
theorem style_object_decodes (template : Template) :
    let component := fun styles => (file .react { template with styles := styles }).content
    (∃ ahead behind : List String, ∀ styles : StyleMap, ∃ inside : List String,
      component styles = ended (ahead ++ styleOpener :: (inside ++ styleCloser :: behind)) ∧
      (∀ line ∈ inside, IsLine line ∧ line ≠ styleCloser) ∧
      Json.fields? ("\x7b" ++ ended inside ++ "\x7d") = some styles.fields ∧
      (styles.fields.map Prod.fst).Nodup ∧
      (Named template → styleObject (component styles) = "\x7b" ++ ended inside ++ "\x7d")) ∧
    Function.Injective component := by
  intro component
  have written (styles : StyleMap) : component styles = ended (linesAhead template ++
      styleOpener :: (reactStyles styles.declarations ++ styleCloser :: linesBehind template)) := by
    rw [← fileLines_react]
    exact content_eq_ended _ _
  refine ⟨⟨linesAhead template, linesBehind template, fun styles =>
    ⟨reactStyles styles.declarations, written styles, ?_, fields?_reactStyles styles,
      styles.nodup_keys, ?_⟩⟩, ?_⟩
  · intro line member
    refine ⟨(forall_mem_reactStyles _ line member).1, ?_⟩
    rintro rfl
    exact styleCloser_notMem_reactStyles _ member
  · intro named
    have styled : Named { template with styles := styles } := ⟨named.name, named.uses⟩
    exact styleObject_file styled
  · intro styles other same
    have inside :
        ended (reactStyles styles.declarations) = ended (reactStyles other.declarations) := by
      rw [written, written] at same
      simpa [← String.toList_inj, ended] using same
    have fields : some styles.fields = some other.fields := by
      rw [← fields?_reactStyles, inside, fields?_reactStyles]
    exact StyleMap.fields_injective (Option.some.inj fields)

theorem style_object_decodes_quotes :
    let template : Template := ⟨"x", 1, .ofList [⟨"content", "\"\n\""⟩], none⟩
    Named template ∧
      Json.fields? (styleObject (file .react template).content) =
        some [("content", "\"\n\"")] := by
  intro template
  have plain : Name.IsPlain "x" := ⟨'x', [], by decide, by decide, List.forall_mem_nil _⟩
  have named : Named template := ⟨plain, List.forall_mem_nil _⟩
  refine ⟨named, ?_⟩
  obtain ⟨⟨ahead, behind, decodes⟩, -⟩ := style_object_decodes template
  obtain ⟨inside, -, -, fields, -, read⟩ := decodes template.styles
  exact (congrArg Json.fields? (read named)).trans fields

end Component

end Wireframe
