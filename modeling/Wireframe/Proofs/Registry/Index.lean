import Std.Data.HashMap.Lemmas
import Wireframe.Proofs.Registry.Calls

/-! A registry kept as a list with an index of its names, which is filled while the list grows, and
with default children that are written down when a content is. Whatever is called, the index tells
the position of each name, the children are those of the content, and the list is the registry. -/

namespace Wireframe

namespace Registry

/-- A template with default children that are kept beside its content. -/
structure Entry where
  template : Template
  children : List String

namespace Entry

def new (name : String) (line : Nat) : Entry :=
  ⟨.new name line, []⟩

def applyStyle (declaration : Declaration) (entry : Entry) : Entry :=
  { entry with template := entry.template.applyStyle declaration }

def setContent (content : Expr) (entry : Entry) : Entry :=
  ⟨entry.template.setContent content, content.topLevel⟩

end Entry

structure Store where
  entries : List Entry
  index : Std.HashMap String Nat

namespace Store

def empty : Store :=
  ⟨[], ∅⟩

def names (store : Store) : List String :=
  store.entries.map (·.template.name)

def get? (store : Store) (name : String) : Option Entry :=
  store.index[name]?.bind (store.entries[·]?)

/-- Adds an entry for a name that is not in the index. -/
def ensure (store : Store) (name : String) (line : Nat) : Store × Nat :=
  match store.index[name]? with
  | some position => (store, position)
  | none =>
      let position := store.entries.length
      (⟨store.entries ++ [.new name line], store.index.insert name position⟩, position)

def update (store : Store) (position : Nat) (change : Entry → Entry) : Store :=
  { store with entries := store.entries.modify position change }

/-- Adds an entry for a name if there is none, and changes the one that it has. -/
def write (store : Store) (name : String) (line : Nat) (change : Entry → Entry) : Store :=
  let (ensured, position) := store.ensure name line
  ensured.update position change

mutual
def register (line : Nat) : Expr → Store → Store
  | .entity name, store => (store.ensure name line).1
  | .group _ children, store => registerAll line children store
  | .container name content, store =>
      register line content (store.write name line (.setContent content))

def registerAll (line : Nat) : List Expr → Store → Store
  | [], store => store
  | item :: rest, store => registerAll line rest (register line item store)
end

def call (store : Store) : Call → Store
  | .apply (.sight name line) => (store.ensure name line).1
  | .apply (.style name line declaration) => store.write name line (.applyStyle declaration)
  | .apply (.content name line content) => store.write name line (.setContent content)
  | .register expression line => register line expression store

def callAll (store : Store) (calls : List Call) : Store :=
  calls.foldl call store

/-- The list of a store is a registry, its index has the position of each name in it, and its
children are those of the contents. -/
structure Represents (store : Store) (registry : Registry) : Prop where
  templates : store.entries.map Entry.template = registry.templates
  children : ∀ entry ∈ store.entries, entry.children = entry.template.defaultChildren
  index : ∀ (name : String) (position : Nat),
    store.index[name]? = some position ↔ registry.names[position]? = some name

variable {store : Store} {registry : Registry} {name : String} {line position : Nat}

theorem represents_empty : empty.Represents .empty where
  templates := rfl
  children := nofun
  index := by simp [empty, Registry.empty, Registry.names]

namespace Represents

theorem names_eq (represents : store.Represents registry) : store.names = registry.names := by
  rw [Registry.names, ← represents.templates, List.map_map]
  rfl

theorem length_names (represents : store.Represents registry) :
    registry.names.length = store.entries.length := by
  rw [← represents.names_eq, names, List.length_map]

theorem distinct (represents : store.Represents registry) : registry.names.Nodup := by
  rw [List.nodup_iff_getElem?_ne_getElem?]
  intro first second before within same
  obtain ⟨name, found⟩ : ∃ name, registry.names[second]? = some name :=
    ⟨_, List.getElem?_eq_getElem within⟩
  have here := (represents.index name first).mpr (same.trans found)
  have there := (represents.index name second).mpr found
  have equal := Option.some.inj (here.symm.trans there)
  omega

theorem exists_entry (represents : store.Represents registry)
    (found : registry.names[position]? = some name) :
    ∃ entry, store.entries[position]? = some entry ∧ entry.template.name = name := by
  rw [← represents.names_eq, names, List.getElem?_map] at found
  exact Option.map_eq_some_iff.mp found

/-- The index finds the entry of a name, and nothing for a name that has none. -/
theorem get?_eq_some_iff (represents : store.Represents registry) {entry : Entry} :
    store.get? name = some entry ↔ entry ∈ store.entries ∧ entry.template.name = name := by
  rw [get?, Option.bind_eq_some_iff]
  constructor
  · rintro ⟨position, indexed, found⟩
    obtain ⟨other, listed, named⟩ :=
      represents.exists_entry ((represents.index name position).mp indexed)
    obtain rfl := Option.some.inj (listed.symm.trans found)
    exact ⟨List.mem_of_getElem? found, named⟩
  · rintro ⟨member, rfl⟩
    obtain ⟨position, found⟩ := List.mem_iff_getElem?.mp member
    have named : registry.names[position]? = some entry.template.name := by
      rw [← represents.names_eq, names, List.getElem?_map, found, Option.map_some]
    exact ⟨position, (represents.index _ position).mpr named, found⟩

theorem index_eq_none_iff (represents : store.Represents registry) :
    store.index[name]? = none ↔ name ∉ registry.names := by
  rw [Option.eq_none_iff_forall_ne_some, List.mem_iff_getElem?, not_exists]
  exact forall_congr' fun position => (represents.index name position).not

theorem ensure (represents : store.Represents registry) (name : String) (line : Nat) :
    (store.ensure name line).1.Represents (registry.ensure name line) ∧
      (registry.ensure name line).names[(store.ensure name line).2]? = some name := by
  unfold Store.ensure
  cases indexed : store.index[name]? with
  | some position =>
      have found := (represents.index name position).mp indexed
      rw [ensure_of_mem (List.mem_of_getElem? found)]
      exact ⟨represents, found⟩
  | none =>
      have unknown := represents.index_eq_none_iff.mp indexed
      have names : (registry.ensure name line).names = registry.names ++ [name] := by
        rw [names_ensure, if_neg unknown]
      have added : (registry.ensure name line).templates =
          registry.templates ++ [.new name line] := by
        rw [Registry.ensure, if_neg (contains_iff_mem_names.not.mpr unknown)]
      simp only [names, ← represents.length_names, List.getElem?_concat_length, and_true]
      constructor
      case templates =>
        rw [added, ← represents.templates, List.map_append]
        rfl
      case children =>
        rw [List.forall_mem_append]
        refine ⟨represents.children, ?_⟩
        rintro entry member
        rw [List.mem_singleton.mp member]
        rfl
      case index =>
        intro other position
        have before := represents.index other position
        have absent : registry.names[position]? ≠ some name := fun found =>
          unknown (List.mem_of_getElem? found)
        rw [Std.HashMap.getElem?_insert, names]
        by_cases same : name = other
        · grind
        · grind

/-- The entry at the position of a name is the only one with that name. -/
theorem modify_entries (represents : store.Represents registry)
    (found : registry.names[position]? = some name) (change : Entry → Entry) :
    store.entries.modify position change = store.entries.map fun entry =>
      if entry.template.name = name then change entry else entry := by
  apply List.ext_getElem?
  intro other
  rw [List.getElem?_modify, List.getElem?_map]
  cases listed : store.entries[other]? with
  | none => rfl
  | some entry =>
      have named : registry.names[other]? = some entry.template.name := by
        rw [← represents.names_eq, names, List.getElem?_map, listed, Option.map_some]
      have place : position = other ↔ entry.template.name = name := by
        constructor
        · rintro rfl
          exact Option.some.inj (named.symm.trans found)
        · rintro rfl
          have here := (represents.index _ position).mpr found
          have there := (represents.index _ other).mpr named
          exact Option.some.inj (here.symm.trans there)
      simp only [Option.map_eq_map, Option.map_some, place]

/-- A change at the position of a name changes the template of that name. -/
theorem update (represents : store.Represents registry)
    (found : registry.names[position]? = some name) {change : Entry → Entry}
    {changed : Template → Template}
    (template : ∀ entry, (change entry).template = changed entry.template)
    (children : ∀ entry, entry.children = entry.template.defaultChildren →
      (change entry).children = (change entry).template.defaultChildren)
    (keeps : ∀ template, (changed template).name = template.name) :
    (store.update position change).Represents (registry.modify name changed) where
  templates := by
    rw [Store.update, represents.modify_entries found, Registry.modify, ← represents.templates,
      List.map_map, List.map_map]
    apply List.map_congr_left
    intro entry _
    rw [Function.comp_apply, Function.comp_apply]
    split
    · exact template entry
    · rfl
  children := by
    rw [Store.update, represents.modify_entries found, List.forall_mem_map]
    intro entry member
    have kept := represents.children entry member
    split
    · exact children entry kept
    · exact kept
  index := by
    rw [names_modify registry name keeps]
    exact represents.index

theorem applyStyle (represents : store.Represents registry) (name : String) (line : Nat)
    (declaration : Declaration) :
    (store.write name line (.applyStyle declaration)).Represents
      (registry.apply (.style name line declaration)) := by
  obtain ⟨ensured, found⟩ := represents.ensure name line
  exact ensured.update found (fun _ => rfl) (fun _ kept => kept) fun _ => rfl

theorem setContent (represents : store.Represents registry) (name : String) (line : Nat)
    (content : Expr) :
    (store.write name line (.setContent content)).Represents
      (registry.apply (.content name line content)) := by
  obtain ⟨ensured, found⟩ := represents.ensure name line
  exact ensured.update found (fun _ => rfl) (fun _ _ => rfl) fun _ => rfl

mutual
theorem register {store : Store} {registry : Registry} (line : Nat) : (expression : Expr) →
    store.Represents registry →
    (Store.register line expression store).Represents (registry.applyAll (expression.edits line))
  | .entity name, represents => (represents.ensure name line).1
  | .group _ children, represents => registerAll line children represents
  | .container name content, represents =>
      register line content (represents.setContent name line content)

theorem registerAll {store : Store} {registry : Registry} (line : Nat) : (items : List Expr) →
    store.Represents registry →
    (Store.registerAll line items store).Represents (registry.applyAll (Expr.editsAll line items))
  | [], represents => represents
  | item :: rest, represents => by
      rw [Expr.editsAll, applyAll_append]
      exact registerAll line rest (register line item represents)
end

theorem call (represents : store.Represents registry) (call : Call) :
    (store.call call).Represents (registry.call call) := by
  cases call with
  | apply edit =>
      cases edit with
      | sight name line => exact (represents.ensure name line).1
      | style name line declaration => exact represents.applyStyle name line declaration
      | content name line content => exact represents.setContent name line content
  | register expression line => exact represents.register line expression

theorem callAll (represents : store.Represents registry) (calls : List Call) :
    (store.callAll calls).Represents (registry.callAll calls) := by
  induction calls generalizing store registry with
  | nil => exact represents
  | cons call rest ih => exact ih (represents.call call)

end Represents

end Store

/-- Whatever calls make a registry from nothing, its names are distinct, each is found with the one
template that has it, and its line is that of the first call that mentions it. A call adds names at
the end, and an expression adds those of its names that are new, keeps all styles, and gives a
content to its containers only. A list with an index and written children keeps the same templates
at the positions that the index tells. -/
theorem consistent_callAll (calls : List Call) :
    let registry := empty.callAll calls
    let store := Store.empty.callAll calls
    registry.names.Nodup ∧
    (∀ name template, registry.get? name = some template ↔
      template ∈ registry.templates ∧ template.name = name) ∧
    (∀ template ∈ registry.templates,
      (calls.find? (template.name ∈ ·.names)).map Call.line = some template.firstLine) ∧
    (∀ call, registry.names <+: (registry.call call).names) ∧
    (∀ expression line,
      let after := registry.register expression line
      after.names = registry.names ++
        (expression.references.filter (· ∉ registry.names)).eraseDups ∧
      (∀ name, after.stylesOf name = registry.stylesOf name) ∧
      ∀ name, name ∉ expression.contents.map Prod.fst →
        after.contentOf? name = registry.contentOf? name) ∧
    store.Represents registry ∧
    (∀ name entry, store.get? name = some entry ↔
      entry ∈ store.entries ∧ entry.template.name = name) ∧
    ∀ entry ∈ store.entries, entry.children = entry.template.content.elim [] Expr.topLevel := by
  intro registry store
  have represents : store.Represents registry := Store.represents_empty.callAll calls
  refine ⟨represents.distinct, fun _ _ => get?_eq_some_iff represents.distinct, ?line, ?names,
    ?expression, represents, fun _ _ => represents.get?_eq_some_iff, represents.children⟩
  case line =>
    intro template member
    have found := (get?_eq_some_iff represents.distinct).mpr ⟨member, rfl⟩
    have line : (empty.callAll calls).firstLineOf? template.name = some template.firstLine := by
      rw [firstLineOf?, found, Option.map_some]
    have unseen : empty.firstLineOf? template.name = none := rfl
    rw [callAll_eq, firstLineOf?_applyAll, find?_edits, unseen, Option.none_or] at line
    exact line
  case names =>
    intro call
    rw [call_eq, names_applyAll]
    exact List.prefix_append _ _
  case expression =>
    intro expression line after
    exact ⟨names_register registry expression line, stylesOf_register registry expression line,
      fun name => contentOf?_register registry line⟩

end Registry

end Wireframe
