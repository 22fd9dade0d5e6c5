import Wireframe.Proofs.Component.Script

/-! The names that a component file binds. Each template is imported once and never by itself,
but names are bound with a capital: those that differ in the case of the first letter alone
are bound as one, and a component may take the name `React` of the package. -/

namespace Wireframe

/-- Without duplicates, the first of each is left where it is first found. -/
theorem pairwise_idxOf_eraseDups (keep : String → Bool) (names : List String) :
    (names.filter keep).eraseDups.Pairwise fun first second =>
      names.idxOf first < names.idxOf second := by
  induction names generalizing keep with
  | nil => exact .nil
  | cons name rest ih =>
      -- where the first name is not among the chosen, all others are found one place further on
      have shifted : ∀ {chosen : List String}, name ∉ chosen →
          chosen.Pairwise (fun first second => rest.idxOf first < rest.idxOf second) →
          chosen.Pairwise fun first second =>
            (name :: rest).idxOf first < (name :: rest).idxOf second := by
        intro chosen absent ordered
        refine ordered.imp_of_mem fun {first second} firstMember secondMember before => ?_
        have notFirst : name ≠ first := fun same => absent (same ▸ firstMember)
        have notSecond : name ≠ second := fun same => absent (same ▸ secondMember)
        rw [List.idxOf_cons_ne _ notFirst, List.idxOf_cons_ne _ notSecond]
        exact Nat.succ_lt_succ before
      cases kept : keep name with
      | false =>
          rw [List.filter_cons_of_neg (by simp [kept])]
          refine shifted ?_ (ih keep)
          simp [kept]
      | true =>
          rw [List.filter_cons_of_pos kept, List.eraseDups_cons, List.filter_filter]
          have absent :
              name ∉ (rest.filter fun other => !other == name && keep other).eraseDups := by
            simp
          refine List.pairwise_cons.mpr ⟨fun other member => ?_, shifted absent (ih _)⟩
          have different : name ≠ other := fun same => absent (same ▸ member)
          rw [List.idxOf_cons_self, List.idxOf_cons_ne _ different]
          exact Nat.succ_pos _

namespace Component

section Dependencies

variable {template : Template}

theorem pairwise_dependencies (template : Template) :
    (dependencies template).Pairwise fun first second =>
      (uses template).idxOf first < (uses template).idxOf second :=
  pairwise_idxOf_eraseDups (· ≠ template.name) (uses template)

theorem nodup_dependencies (template : Template) : (dependencies template).Nodup := by
  rw [List.nodup_iff_pairwise_ne]
  refine (pairwise_dependencies template).imp ?_
  rintro name _ before rfl
  exact Nat.lt_irrefl _ before

end Dependencies

/-! Imports and the files that they lead to. -/

/-- The file that an import leads to. A package has none, and the extension of a script is
left out. -/
def Binding.file? (framework : Framework) (binding : Binding) : Option String :=
  match framework, binding.source?.map String.toList with
  | .react, some ('.' :: '/' :: rest) => some (String.ofList rest ++ ".tsx")
  | _, some ('.' :: '/' :: rest) => some (String.ofList rest)
  | _, _ => none

/-- The names that are bound to files, with the paths of the files. -/
def imports (framework : Framework) (bindings : List Binding) : List (String × String) :=
  bindings.filterMap fun binding => (binding.file? framework).map fun path => (binding.name, path)

section Imports

variable {framework : Framework} {template : Template}

theorem file?_importOf (component : framework ≠ .html) (name : String) :
    (importOf framework name).file? framework = some (path framework name) := by
  cases framework with
  | html => exact absurd rfl component
  | vue | react => simp [importOf, Binding.file?, Binding.source?, path, tagName,
      Framework.extension]

theorem name_importOf (framework : Framework) (name : String) :
    (importOf framework name).name = capitalize name := by
  cases framework <;> rfl

theorem imports_file (component : framework ≠ .html) (named : Named template) :
    imports framework (bindings framework (file framework template).content) =
      (dependencies template).map fun name => (capitalize name, path framework name) := by
  have components : imports framework ((dependencies template).map (importOf framework)) =
      (dependencies template).map fun name => (capitalize name, path framework name) := by
    rw [imports, List.filterMap_map, ← List.filterMap_eq_map]
    refine List.filterMap_congr fun name _ => ?_
    rw [Function.comp_apply, file?_importOf component, name_importOf]
    rfl
  rw [bindings_file framework named]
  cases framework with
  | html => exact absurd rfl component
  | vue => exact components
  | react =>
      have package : (Binding.importDefault "React" "react").file? .react = none := by
        simp [Binding.file?, Binding.source?]
      have function : (Binding.function (capitalize template.name)).file? .react = none := rfl
      rw [declared, imports, List.filterMap_cons, package, List.filterMap_append]
      rw [imports] at components
      simpa [function] using components

end Imports

/-! Where the bound names clash. -/

def others (template : Template) : List String :=
  (uses template).filter (· ≠ template.name)

/-- The names that a file binds, as they are before they are written with a capital. -/
def boundNames : Framework → Template → List String
  | .html, _ => []
  | .vue, template => others template
  | .react, template => "React" :: template.name :: uses template

theorem nodup_map_capitalize {names : List String} (plain : ∀ name ∈ names, Name.IsPlain name) :
    (names.map capitalize).Nodup ↔
      names.Nodup ∧ ∀ name ∈ names, ∀ other ∈ names, ¬ Recased name other := by
  have merged {name other : String} (member : name ∈ names) (otherMember : other ∈ names) :
      capitalize name = capitalize other ↔ name = other ∨ Recased name other :=
    capitalize_eq_iff (plain name member) (plain other otherMember)
  constructor
  · intro distinct
    refine ⟨distinct.of_map _, fun name member other otherMember recased => ?_⟩
    have same := (merged member otherMember).mpr (.inr recased)
    exact recased.ne (List.inj_on_of_nodup_map distinct member otherMember same)
  · rintro ⟨distinct, apart⟩
    rw [List.nodup_map_iff_inj_on distinct]
    intro name member other otherMember same
    exact ((merged member otherMember).mp same).resolve_right (apart name member other otherMember)

section Clashes

variable {framework : Framework} {template : Template}

theorem isPlain_react : Name.IsPlain "React" :=
  ⟨'R', ['e', 'a', 'c', 't'], by simp, rfl, by simp [Name.isTail]⟩

theorem capitalize_react : capitalize "React" = "React" := by cbv

theorem mem_dependencies_iff_mem_others {name : String} :
    name ∈ dependencies template ↔ name ∈ others template := by
  rw [mem_dependencies_iff, others, List.mem_filter, decide_eq_true_iff]

theorem nodup_capitalize_dependencies (named : Named template) :
    ((dependencies template).map capitalize).Nodup ↔
      ∀ name ∈ others template, ∀ other ∈ others template, ¬ Recased name other := by
  rw [nodup_map_capitalize fun name => named.of_mem_dependencies,
    and_iff_right (nodup_dependencies template)]
  simp only [mem_dependencies_iff_mem_others]

theorem nodup_names_vue (named : Named template) :
    ((declared .vue template).map Binding.name).Nodup ↔
      ∀ name ∈ others template, ∀ other ∈ others template, ¬ Recased name other := by
  have names : (declared .vue template).map Binding.name =
      (dependencies template).map capitalize := by
    rw [declared, List.map_map]
    exact List.map_congr_left fun name _ => name_importOf .vue name
  rw [names, nodup_capitalize_dependencies named]

theorem mem_react_iff {name : String} :
    name ∈ "React" :: (dependencies template ++ [template.name]) ↔
      name ∈ boundNames .react template := by
  rw [boundNames, List.mem_cons, List.mem_append, mem_dependencies_iff, List.mem_singleton,
    List.mem_cons, List.mem_cons]
  tauto

theorem Named.of_mem_react (named : Named template) {name : String}
    (member : name ∈ boundNames .react template) : Name.IsPlain name := by
  rcases List.mem_cons.mp member with rfl | own
  · exact isPlain_react
  · rcases List.mem_cons.mp own with rfl | used
    · exact named.name
    · exact named.uses name used

theorem nodup_react :
    ("React" :: (dependencies template ++ [template.name])).Nodup ↔
      "React" ∉ template.name :: uses template := by
  have own : template.name ∉ dependencies template := fun member =>
    (mem_dependencies_iff.mp member).2 rfl
  have distinct : (dependencies template ++ [template.name]).Nodup :=
    List.nodup_append.mpr ⟨nodup_dependencies template, List.nodup_singleton _, by
      rintro name member _ last rfl
      exact own (List.mem_singleton.mp last ▸ member)⟩
  rw [List.nodup_cons, and_iff_left distinct, List.mem_append, mem_dependencies_iff,
    List.mem_singleton, List.mem_cons]
  tauto

theorem nodup_names_react (named : Named template) :
    ((declared .react template).map Binding.name).Nodup ↔
      (∀ name ∈ boundNames .react template, ∀ other ∈ boundNames .react template,
        ¬ Recased name other) ∧ "React" ∉ template.name :: uses template := by
  have names : (declared .react template).map Binding.name =
      ("React" :: (dependencies template ++ [template.name])).map capitalize := by
    rw [declared, List.map_cons, List.map_cons, List.map_append, List.map_append, List.map_map,
      capitalize_react]
    rfl
  rw [names, nodup_map_capitalize fun name member => named.of_mem_react (mem_react_iff.mp member),
    nodup_react, and_comm]
  simp only [mem_react_iff]

theorem nodup_names_file (framework : Framework) (named : Named template) :
    ((bindings framework (file framework template).content).map Binding.name).Nodup ↔
      (∀ name ∈ boundNames framework template, ∀ other ∈ boundNames framework template,
        ¬ Recased name other) ∧
      (framework = .react → "React" ∉ template.name :: uses template) := by
  rw [bindings_file framework named]
  cases framework with
  | html => simp [declared, boundNames]
  | vue => simpa [boundNames] using nodup_names_vue named
  | react => simpa using nodup_names_react named

theorem nodup_names_imports (component : framework ≠ .html) (named : Named template) :
    ((imports framework (bindings framework (file framework template).content)).map
        Prod.fst).Nodup ↔
      ∀ name ∈ others template, ∀ other ∈ others template, ¬ Recased name other := by
  have names : ((dependencies template).map fun name =>
      (capitalize name, path framework name)).map Prod.fst =
        (dependencies template).map capitalize := List.map_map
  rw [imports_file component named, names, nodup_capitalize_dependencies named]

theorem path_mem_imports_iff (component : framework ≠ .html) (named : Named template) :
    (file framework template).path ∈
        (imports framework (bindings framework (file framework template).content)).map Prod.snd ↔
      ∃ name ∈ uses template, Recased name template.name := by
  rw [imports_file component named, List.map_map, List.mem_map]
  constructor
  · rintro ⟨name, member, same⟩
    obtain ⟨used, other⟩ := mem_dependencies_iff.mp member
    have clash := (path_eq_iff framework (named.uses name used) named.name).mp same
    exact ⟨name, used, (clash.resolve_left other).2⟩
  · rintro ⟨name, used, recased⟩
    exact ⟨name, mem_dependencies_iff.mpr ⟨used, recased.ne⟩,
      (path_eq_iff framework (named.uses name used) named.name).mpr (.inr ⟨component, recased⟩)⟩

end Clashes

end Component

namespace Document

variable {resolve : Resolver} {source : String} {template : Template}

theorem uses_subset_names (member : template ∈ (parse resolve source).templates.templates) :
    Component.uses template ⊆ (parse resolve source).templates.names := by
  cases stored : template.content with
  | none =>
      rw [Component.uses, stored]
      exact List.nil_subset _
  | some content =>
      rw [Component.uses, stored]
      exact closed_templates_parse resolve source template member content stored

theorem named_of_mem_templates (member : template ∈ (parse resolve source).templates.templates) :
    Component.Named template where
  name := isPlain_of_mem_names resolve source (List.mem_map_of_mem member)
  uses _ used := isPlain_of_mem_names resolve source (uses_subset_names member used)

end Document

/-- A component file binds distinct names, but for those that differ in the case of the first
letter alone, and for a component that has the name of the package. The imports of components
clash in the first way only, and a file imports its own path if the component uses another
whose name differs from its own in that way. -/
theorem Compilation.bindings_apart (resolve : Resolver) (purpose : Purpose) (roots : List String)
    (source : String) (framework : Framework) :
    ∀ template ∈ (ofSource resolve purpose roots source).document.templates.templates,
      let file := Component.file framework template
      let bound := Component.bindings framework file.content
      let imported := Component.imports framework bound
      ((bound.map Component.Binding.name).Nodup ↔
        (∀ name ∈ Component.boundNames framework template,
          ∀ other ∈ Component.boundNames framework template, ¬ Component.Recased name other) ∧
        (framework = .react → "React" ∉ template.name :: Component.uses template)) ∧
      (framework ≠ .html →
        ((imported.map Prod.fst).Nodup ↔
          ∀ name ∈ Component.others template, ∀ other ∈ Component.others template,
            ¬ Component.Recased name other) ∧
        (file.path ∈ imported.map Prod.snd ↔
          ∃ name ∈ Component.uses template, Component.Recased name template.name)) := by
  intro template member file bound imported
  have named : Component.Named template := Document.named_of_mem_templates member
  exact ⟨Component.nodup_names_file framework named, fun component =>
    ⟨Component.nodup_names_imports component named, Component.path_mem_imports_iff component named⟩⟩

/-- A component that uses two others whose names differ in the case of the first letter. -/
theorem Document.templates_parse_recased_uses :
    (parse Shorthand.resolve "x[a + A]").templates =
      ⟨[⟨"x", 1, .empty, some (.group .row [.entity "a", .entity "A"])⟩,
        ⟨"a", 1, .empty, none⟩, ⟨"A", 1, .empty, none⟩]⟩ := by
  have line : Line.ofSource "x[a + A]".toList =
      .layout [] (.ok (.container "x" (.group .row [.entity "a", .entity "A"]))) := by cbv
  have inSource : numbered "x[a + A]" = [("x[a + A]".toList, 1)] := by decide
  rw [templates_parse, inSource, List.flatMap_singleton, line]
  rfl

theorem Document.mem_templates_recased_uses :
    ⟨"x", 1, .empty, some (.group .row [.entity "a", .entity "A"])⟩ ∈
      (parse Shorthand.resolve "x[a + A]").templates.templates := by
  rw [templates_parse_recased_uses]
  exact List.mem_cons_self

/-- Its bindings clash, but none of them is its own file. -/
theorem Compilation.bindings_apart_recased :
    let registry := (ofSource Shorthand.resolve .generate [] "x[a + A]").document.templates
    ∃ template ∈ registry.templates,
      let file := Component.file .react template
      let bound := Component.bindings .react file.content
      ¬ (bound.map Component.Binding.name).Nodup ∧
        file.path ∉ (Component.imports .react bound).map Prod.snd := by
  intro registry
  have member : _ ∈ registry.templates := Document.mem_templates_recased_uses
  have named := Document.named_of_mem_templates Document.mem_templates_recased_uses
  obtain ⟨distinct, imported⟩ :=
    bindings_apart Shorthand.resolve .generate [] "x[a + A]" .react _ member
  have recased : Component.Recased "a" "A" := ⟨'a', 'A', [], rfl, rfl, by decide, by decide⟩
  refine ⟨_, member, ?clash, ?others⟩
  case clash =>
    rw [distinct]
    rintro ⟨apart, -⟩
    exact apart "a" (by decide) "A" (by decide) recased
  case others =>
    rw [(imported nofun).2]
    rintro ⟨name, used, same⟩
    have capital := (Component.capitalize_eq_iff (named.uses name used) named.name).mpr (.inr same)
    simp only [Component.uses, Option.elim_some, Expr.references, Expr.referencesAll,
      List.append_nil, List.cons_append, List.nil_append, List.mem_cons, List.not_mem_nil,
      or_false] at used
    rcases used with rfl | rfl
    · exact absurd capital (by decide)
    · exact absurd capital (by decide)

/-- Both are imported, under one name. -/
theorem Compilation.bindings_clash :
    let registry := (ofSource Shorthand.resolve .generate [] "x[a + A]").document.templates
    ∃ template ∈ registry.templates,
      let bound := Component.bindings .vue (Component.file .vue template).content
      bound = [.importDefault "A" "./A.vue", .importDefault "A" "./A.vue"] ∧
        ¬ (bound.map Component.Binding.name).Nodup := by
  intro registry
  have member := Document.mem_templates_recased_uses
  have bound := Component.bindings_file .vue (Document.named_of_mem_templates member)
  refine ⟨_, member, bound, ?_⟩
  rw [bound]
  decide

end Wireframe
