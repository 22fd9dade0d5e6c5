import Wireframe.Proofs.Expansion.Context

/-! Where expansion stops. A node is found by its address, which also tells the nodes
around it and the occurrence in the source or in a template that it was made from; what
becomes of it depends on these alone. -/

namespace Wireframe

namespace Layout

/-- A step down in a layout: into the content of a node, or to a child of a group. -/
inductive Step
  | inside
  | child (index : Nat)
  deriving Repr, DecidableEq

/-- The block at an address with the nodes around it, outermost first. -/
def locate? : Layout ι → List Step → Option (List (Node ι) × Block ι)
  | .leaf node, [] => some ([], ⟨node, none⟩)
  | .box node content, [] => some ([], ⟨node, some content⟩)
  | .box node content, .inside :: rest =>
      (content.locate? rest).map fun (above, block) => (node :: above, block)
  | .group _ children, .child index :: rest => children[index]?.bind (·.locate? rest)
  | _, _ => none

theorem mem_nodes_of_locate? {layout : Layout ι} {address : List Step} {above : List (Node ι)}
    {block : Block ι} (located : layout.locate? address = some (above, block)) :
    block.node ∈ layout.nodes := by
  induction address generalizing layout above with
  | nil =>
      cases layout with
      | leaf node =>
          cases located
          simp [nodes]
      | box node content =>
          cases located
          simp [nodes]
      | group direction children => cases located
  | cons step rest ih =>
      cases step with
      | inside =>
          cases layout with
          | leaf node => cases located
          | box node content =>
              obtain ⟨⟨below, inner⟩, locatedInner, equal⟩ := Option.map_eq_some_iff.mp located
              cases equal
              exact List.mem_cons_of_mem _ (ih locatedInner)
          | group direction children => cases located
      | child index =>
          cases layout with
          | leaf node => cases located
          | box node content => cases located
          | group direction children =>
              obtain ⟨child, member, locatedChild⟩ := Option.bind_eq_some_iff.mp located
              rw [nodes, nodesAll_eq_flatMap, List.mem_flatMap]
              exact ⟨child, List.mem_of_getElem? member, ih locatedChild⟩

mutual
theorem exists_locate?_of_mem_nodes {node : Node ι} : (layout : Layout ι) →
    node ∈ layout.nodes → ∃ address above content,
      layout.locate? address = some (above, ⟨node, content⟩)
  | .leaf _, member => by
      obtain rfl := List.mem_singleton.mp member
      exact ⟨[], [], none, rfl⟩
  | .box outer content, member => by
      cases List.mem_cons.mp member with
      | inl equal =>
          subst equal
          exact ⟨[], [], some content, rfl⟩
      | inr inner =>
          obtain ⟨address, above, found, located⟩ := exists_locate?_of_mem_nodes content inner
          exact ⟨.inside :: address, outer :: above, found, by simp [locate?, located]⟩
  | .group _ children, member => by
      obtain ⟨index, child, found, address, above, content, located⟩ :=
        exists_locate?_of_mem_nodesAll children member
      exact ⟨.child index :: address, above, content, by simp [locate?, found, located]⟩

theorem exists_locate?_of_mem_nodesAll {node : Node ι} : (items : List (Layout ι)) →
    node ∈ nodesAll items → ∃ (index : Nat) (child : Layout ι), items[index]? = some child ∧
      ∃ address above content, child.locate? address = some (above, ⟨node, content⟩)
  | [], member => nomatch member
  | item :: rest, member => by
      cases List.mem_append.mp member with
      | inl first => exact ⟨0, item, rfl, exists_locate?_of_mem_nodes item first⟩
      | inr later =>
          obtain ⟨index, child, found, inner⟩ := exists_locate?_of_mem_nodesAll rest later
          exact ⟨index + 1, child, found, inner⟩
end

/-- The nodes of a layout are those that have an address. -/
theorem mem_nodes_iff_locate? {layout : Layout ι} {node : Node ι} :
    node ∈ layout.nodes ↔ ∃ address above content,
      layout.locate? address = some (above, ⟨node, content⟩) := by
  constructor
  · exact exists_locate?_of_mem_nodes layout
  · intro ⟨_, _, _, located⟩
    exact mem_nodes_of_locate? located

end Layout

/-- A place where a name stands, by itself or with a content of its own. -/
inductive Occurrence
  | bare (name : String)
  | container (name : String)
  deriving Repr, DecidableEq

def Occurrence.name : Occurrence → String
  | .bare name => name
  | .container name => name

/-- The occurrence that the node at an address comes from. A bare reference leads on to
the content of its template. -/
def Registry.occurrence? (registry : Registry) : Expr → List Layout.Step → Option Occurrence
  | .entity name, [] => some (.bare name)
  | .container name _, [] => some (.container name)
  | .entity name, .inside :: rest =>
      ((registry.get? name).bind (·.content)).bind (registry.occurrence? · rest)
  | .container _ content, .inside :: rest => registry.occurrence? content rest
  | .group _ children, .child index :: rest =>
      children[index]?.bind (registry.occurrence? · rest)
  | _, _ => none

/-- What becomes of an occurrence where the names in `around` are being unrolled. -/
structure Occurrence.Gives (registry : Registry) (around : String → Prop)
    (occurrence : Occurrence) (block : Block ι) : Prop where
  template : block.node.template = occurrence.name
  container : ∀ name, occurrence = .container name → registry.contains name = true →
    block.node.terminated = false
  bare : ∀ name, occurrence = .bare name → registry.contains name = true →
    (block.node.terminated = true ↔ around name)
  unknown : registry.contains occurrence.name = false →
    block.node.terminated = true ∧ block.node.styles = .empty
  terminal : block.node.terminated = true → block.content = none

/-! Addresses in numbered layouts. -/

def Node.forget (node : Node ι) : Node Unit :=
  ⟨(), node.template, node.styles, node.terminated⟩

namespace Layout

mutual
/-- A layout without what tells its nodes apart. -/
def forget : Layout ι → Layout Unit
  | .leaf node => .leaf node.forget
  | .box node content => .box node.forget content.forget
  | .group direction children => .group direction (forgetAll children)

def forgetAll : List (Layout ι) → List (Layout Unit)
  | [] => []
  | item :: rest => item.forget :: forgetAll rest
end

theorem forgetAll_eq_map (items : List (Layout ι)) : forgetAll items = items.map forget := by
  induction items with
  | nil => rfl
  | cons item rest ih => simp [forgetAll, ih]

mutual
theorem forget_number (rank : Nat) : (layout : Layout Unit) → (layout.number rank).forget = layout
  | .leaf _ => rfl
  | .box _ content => by
      rw [number, forget, forget_number (rank + 1) content]
      rfl
  | .group _ children => by rw [number, forget, forgetAll_numberAll rank children]

theorem forgetAll_numberAll (rank : Nat) : (items : List (Layout Unit)) →
    forgetAll (numberAll rank items) = items
  | [] => rfl
  | item :: rest => by
      rw [numberAll, forgetAll, forget_number rank item,
        forgetAll_numberAll (rank + item.size) rest]
end

end Layout

def Block.forget (block : Block ι) : Block Unit :=
  ⟨block.node.forget, block.content.map Layout.forget⟩

namespace Layout

theorem locate?_forget (layout : Layout ι) (address : List Step) :
    layout.forget.locate? address =
      (layout.locate? address).map fun (above, block) =>
        (above.map Node.forget, block.forget) := by
  induction address generalizing layout with
  | nil => cases layout <;> rfl
  | cons step rest ih =>
      cases step with
      | inside =>
          cases layout with
          | leaf node => rfl
          | box node content =>
              simp only [forget, locate?, ih, Option.map_map]
              rfl
          | group direction children => rfl
      | child index =>
          cases layout with
          | leaf node => rfl
          | box node content => rfl
          | group direction children =>
              simp only [forget, forgetAll_eq_map, locate?, List.getElem?_map]
              cases children[index]? with
              | none => rfl
              | some child => exact ih child

end Layout

theorem Occurrence.Gives.of_forget {registry : Registry} {around : String → Prop}
    {occurrence : Occurrence} {block : Block ι}
    (gives : occurrence.Gives registry around block.forget) :
    occurrence.Gives registry around block where
  template := gives.template
  container := gives.container
  bare := gives.bare
  unknown := gives.unknown
  terminal := fun terminated => by simpa [Block.forget] using gives.terminal terminated

theorem Occurrence.Gives.congr {registry : Registry} {around other : String → Prop}
    {occurrence : Occurrence} {block : Block ι}
    (gives : occurrence.Gives registry around block) (same : ∀ name, around name ↔ other name) :
    occurrence.Gives registry other block :=
  { gives with bare := fun name isBare known => (gives.bare name isBare known).trans (same name) }

/-! Each expression with a name is unrolled to a block. -/

namespace Layout

theorem locate?_block_nil (block : Block ι) : block.layout.locate? [] = some ([], block) := by
  rcases block with ⟨node, _ | content⟩ <;> rfl

theorem locate?_block_inside (block : Block ι) (rest : List Step) :
    block.layout.locate? (.inside :: rest) =
      block.content.bind fun content =>
        (content.locate? rest).map fun (above, inner) => (block.node :: above, inner) := by
  rcases block with ⟨node, _ | content⟩ <;> rfl

theorem locate?_block_child (block : Block ι) (index : Nat) (rest : List Step) :
    block.layout.locate? (.child index :: rest) = none := by
  rcases block with ⟨node, _ | content⟩ <;> rfl

end Layout

namespace Registry

variable {registry : Registry} {path : List String} {nested : Bool}

theorem exists_block_entity (registry : Registry) (path : List String) (nested : Bool)
    (name : String) :
    ∃ block : Block Unit, registry.expand path nested (.entity name) = block.layout ∧
      (Occurrence.bare name).Gives registry (fun other => nested = true ∧ other ∈ path) block ∧
      ∀ inner, block.content = some inner →
        ∃ content, (registry.get? name).bind (·.content) = some content ∧
          inner = registry.expand (name :: path) true content := by
  cases found : registry.get? name with
  | none =>
      have unknown := not_contains_of_get? found
      refine ⟨⟨⟨(), name, .empty, true⟩, none⟩, expand_entity_unknown found, ?_, nofun⟩
      exact ⟨rfl, nofun, fun _ equal known => by cases equal; simp [unknown] at known,
        fun _ => ⟨rfl, rfl⟩, fun _ => rfl⟩
  | some template =>
      have known := contains_of_get? found
      by_cases cut : nested = true ∧ name ∈ path
      · refine ⟨⟨⟨(), name, template.styles, true⟩, none⟩, expand_entity_cut found cut, ?_,
          nofun⟩
        exact ⟨rfl, nofun, fun _ equal _ => by cases equal; simp [cut],
          fun unknown => by simp [Occurrence.name, known] at unknown, fun _ => rfl⟩
      · refine ⟨⟨⟨(), name, template.styles, false⟩, _⟩, expand_entity found cut, ?_, ?_⟩
        · exact ⟨rfl, nofun, fun _ equal _ => by cases equal; simp [cut],
            fun unknown => by simp [Occurrence.name, known] at unknown, nofun⟩
        · intro inner unrolled
          obtain ⟨content, stored, equal⟩ := Option.map_eq_some_iff.mp unrolled
          exact ⟨content, stored, equal.symm⟩

theorem exists_block_container (registry : Registry) (path : List String) (nested : Bool)
    (around : String → Prop) (name : String) (content : Expr) :
    ∃ block : Block Unit, registry.expand path nested (.container name content) = block.layout ∧
      (Occurrence.container name).Gives registry around block ∧
      ∀ inner, block.content = some inner →
        inner = registry.expand (name :: path) true content := by
  cases found : registry.get? name with
  | none =>
      have unknown := not_contains_of_get? found
      refine ⟨⟨⟨(), name, .empty, true⟩, none⟩, expand_container_unknown found, ?_, nofun⟩
      exact ⟨rfl, fun _ equal known => by cases equal; simp [unknown] at known, nofun,
        fun _ => ⟨rfl, rfl⟩, fun _ => rfl⟩
  | some template =>
      have known := contains_of_get? found
      refine ⟨⟨⟨(), name, template.styles, false⟩,
        some (registry.expand (name :: path) true content)⟩, expand_container found, ?_, ?_⟩
      · exact ⟨rfl, fun _ _ _ => rfl, nofun,
          fun unknown => by simp [Occurrence.name, known] at unknown, nofun⟩
      · intro inner unrolled
        exact (Option.some.inj unrolled).symm

/-- What a name unrolls to, and what its content comes from. -/
theorem exists_block {expression : Expr} {occurrence : Occurrence} (path : List String)
    (nested : Bool) (stands : registry.occurrence? expression [] = some occurrence) :
    ∃ block : Block Unit, registry.expand path nested expression = block.layout ∧
      occurrence.Gives registry (fun other => nested = true ∧ other ∈ path) block ∧
      ∀ inner, block.content = some inner →
        ∃ content, inner = registry.expand (occurrence.name :: path) true content ∧
          ∀ rest, registry.occurrence? expression (.inside :: rest) =
            registry.occurrence? content rest := by
  cases expression with
  | entity name =>
      cases stands
      obtain ⟨block, equal, gives, contents⟩ := registry.exists_block_entity path nested name
      refine ⟨block, equal, gives, ?_⟩
      intro inner unrolled
      obtain ⟨content, stored, equal⟩ := contents inner unrolled
      exact ⟨content, equal, fun rest => by rw [occurrence?, stored, Option.bind_some]⟩
  | container name content =>
      cases stands
      obtain ⟨block, equal, gives, contents⟩ :=
        registry.exists_block_container path nested _ name content
      exact ⟨block, equal, gives, fun inner unrolled =>
        ⟨content, contents inner unrolled, fun _ => rfl⟩⟩
  | group direction children => cases stands

theorem exists_group {expression : Expr}
    (unnamed : registry.occurrence? expression [] = none) :
    ∃ direction children, expression = .group direction children := by
  cases expression with
  | entity name => cases unnamed
  | container name content => cases unnamed
  | group direction children => exact ⟨direction, children, rfl⟩

/-- The names that may cut a reference below `above`: those around it, and those on the
path once a content has begun. -/
def Threatens (path : List String) (nested : Bool) (above : List (Node ι)) (name : String) :
    Prop :=
  (nested = true ∨ above ≠ []) ∧ (name ∈ above.map (·.template) ∨ name ∈ path)

theorem threatens_nil (name : String) :
    Threatens path nested ([] : List (Node ι)) name ↔ nested = true ∧ name ∈ path := by
  simp [Threatens]

theorem threatens_cons {node : Node ι} {above : List (Node ι)} (name : String) :
    Threatens (node.template :: path) true above name ↔
      Threatens path nested (node :: above) name := by
  simp only [Threatens, List.map_cons, List.mem_cons, true_or, true_and, ne_eq,
    reduceCtorEq, not_false_eq_true, or_true]
  constructor
  · intro threatens
    obtain inner | outer | path := threatens
    · exact .inl (.inr inner)
    · exact .inl (.inl outer)
    · exact .inr path
  · intro threatens
    obtain (outer | inner) | path := threatens
    · exact .inr (.inl outer)
    · exact .inl inner
    · exact .inr (.inr path)

theorem threatens_start {above : List (Node ι)} (name : String) :
    Threatens [] nested above name ↔ name ∈ above.map (·.template) := by
  constructor
  · intro threatens
    cases threatens.2 with
    | inl enclosed => exact enclosed
    | inr onPath => cases onPath
  · intro enclosed
    refine ⟨.inr ?_, .inl enclosed⟩
    intro none
    simp [none] at enclosed

theorem gives_of_locate? {expression : Expr} {address : List Layout.Step}
    {above : List (Node Unit)} {block : Block Unit}
    (located : (registry.expand path nested expression).locate? address = some (above, block)) :
    ∃ occurrence, registry.occurrence? expression address = some occurrence ∧
      occurrence.Gives registry (Threatens path nested above) block := by
  -- the address leads down the layout and the sources at once
  induction address generalizing expression path nested above with
  | nil =>
      cases named : registry.occurrence? expression [] with
      | none =>
          obtain ⟨direction, children, rfl⟩ := exists_group named
          rw [expand_group] at located
          cases located
      | some occurrence =>
          obtain ⟨unrolled, equal, gives, -⟩ := exists_block path nested named
          rw [equal, Layout.locate?_block_nil] at located
          cases located
          exact ⟨occurrence, rfl, gives.congr fun other => (threatens_nil other).symm⟩
  | cons step rest ih =>
      cases step with
      | inside =>
          cases named : registry.occurrence? expression [] with
          | none =>
              obtain ⟨direction, children, rfl⟩ := exists_group named
              rw [expand_group] at located
              cases located
          | some occurrence =>
              obtain ⟨unrolled, equal, gives, contents⟩ := exists_block path nested named
              rw [equal, Layout.locate?_block_inside, Option.bind_eq_some_iff] at located
              obtain ⟨inner, hasContent, located⟩ := located
              obtain ⟨⟨below, found⟩, locatedInner, equal⟩ := Option.map_eq_some_iff.mp located
              cases equal
              obtain ⟨content, rfl, inside⟩ := contents inner hasContent
              obtain ⟨innerOccurrence, occurs, givesInner⟩ := ih locatedInner
              rw [← gives.template] at givesInner
              exact ⟨innerOccurrence, (inside rest).trans occurs,
                givesInner.congr threatens_cons⟩
      | child index =>
          cases named : registry.occurrence? expression [] with
          | none =>
              obtain ⟨direction, children, rfl⟩ := exists_group named
              rw [expand_group, Layout.locate?, List.getElem?_map, Option.bind_eq_some_iff]
                at located
              obtain ⟨unrolled, child, locatedChild⟩ := located
              obtain ⟨item, member, rfl⟩ := Option.map_eq_some_iff.mp child
              obtain ⟨occurrence, occurs, gives⟩ := ih locatedChild
              exact ⟨occurrence, by simp [occurrence?, member, occurs], gives⟩
          | some occurrence =>
              obtain ⟨unrolled, equal, -⟩ := exists_block path nested named
              rw [equal, Layout.locate?_block_child] at located
              cases located

/-- From an empty path, only the nodes around a reference can cut it. -/
theorem gives_of_forget {expression : Expr} {layout : Layout ι} {address : List Layout.Step}
    {above : List (Node ι)} {block : Block ι}
    (unrolled : layout.forget = registry.expand [] nested expression)
    (located : layout.locate? address = some (above, block)) :
    ∃ occurrence, registry.occurrence? expression address = some occurrence ∧
      occurrence.Gives registry (· ∈ above.map (·.template)) block := by
  have forgotten := Layout.locate?_forget layout address
  rw [located, unrolled] at forgotten
  obtain ⟨occurrence, occurs, gives⟩ := gives_of_locate? forgotten
  refine ⟨occurrence, occurs, .of_forget (gives.congr ?_)⟩
  intro name
  rw [threatens_start, List.map_map]
  rfl

end Registry

/-- In the layout of every call, a node of a known name is terminated exactly if it comes
from a bare reference below a node of its own name, and a node of an unknown name always
is. -/
theorem Context.Reached.terminates_exactly_cycles {registry : Registry}
    {context after : Context} {call : Call} {layout : Layout String}
    (reached : context.Reached registry) (runs : call.Runs registry context layout after) :
    layout = (context.toSession.place registry (call.unroll registry)).1 ∧
      ∀ address above block, layout.locate? address = some (above, block) →
        ∃ occurrence, registry.occurrence? call.source address = some occurrence ∧
          occurrence.Gives registry (· ∈ above.map (·.template)) block := by
  obtain ⟨equal, -⟩ := reached.runs_iff.mp runs
  refine ⟨equal, ?_⟩
  intro address above block located
  have unrolled : layout.forget = registry.expand [] call.nested call.source := by
    rw [equal, Session.place, Layout.forget_number, call.unroll_eq]
  exact Registry.gives_of_forget unrolled located

/-- A container around its own name is cut once. -/
theorem Context.Reached.terminates_exactly_cycles_loop :
    let registry : Registry := ⟨[⟨"a", 1, .empty, some (.entity "a")⟩]⟩
    let call : Call := .layout (.container "a" (.entity "a")) false
    let layout : Layout String :=
      .box ⟨"a_1", "a", .empty, false⟩ (.leaf ⟨"a_2", "a", .empty, true⟩)
    layout = (Session.start.place registry (call.unroll registry)).1 ∧
      ∀ address above block, layout.locate? address = some (above, block) →
        ∃ occurrence, registry.occurrence? call.source address = some occurrence ∧
          occurrence.Gives registry (· ∈ above.map (·.template)) block := by
  intro registry call layout
  have found : registry.get? "a" = some ⟨"a", 1, .empty, some (.entity "a")⟩ := rfl
  let inside : Context := (Context.count ⟨.start, ∅⟩).enter "a"
  have cut : Context.Unrolls registry inside true (.entity "a")
      (.leaf (inside.node "a" .empty true)) inside.count :=
    .entity (.cut found (Finset.mem_insert_self "a" ∅))
  have runs : call.Runs registry ⟨.start, ∅⟩
      (.box (Context.node ⟨.start, ∅⟩ "a" .empty false) (.leaf (inside.node "a" .empty true)))
      (inside.count.leave "a") :=
    .container (.entered found (Finset.notMem_empty "a") rfl cut)
  have first : Context.node ⟨.start, ∅⟩ "a" .empty false = ⟨"a_1", "a", .empty, false⟩ := rfl
  have second : inside.node "a" .empty true = ⟨"a_2", "a", .empty, true⟩ := by decide
  rw [first, second] at runs
  exact terminates_exactly_cycles .start runs

end Wireframe
