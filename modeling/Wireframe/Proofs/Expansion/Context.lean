import Mathlib.Data.Finset.Basic
import Wireframe.Proofs.Expansion

/-! Expansion as a run that changes one context as it goes: the next rank, the
diagnostics so far, and a single set of active names. A name is entered when its content
begins and left when it ends, but only by the one that entered it. Every run ends, in the
layout that a session places. -/

namespace Wireframe

structure Context extends Session where
  active : Finset String

namespace Context

def node (context : Context) (name : String) (styles : StyleMap) (terminated : Bool) :
    Node String :=
  ⟨name ++ "_" ++ toString context.rank, name, styles, terminated⟩

def count (context : Context) : Context :=
  { context with rank := context.rank + 1 }

def report (context : Context) (diagnostic : Diagnostic) : Context :=
  { context with diagnostics := context.diagnostics ++ [diagnostic] }

def enter (context : Context) (name : String) : Context :=
  { context with active := insert name context.active }

def leave (context : Context) (name : String) : Context :=
  { context with active := context.active.erase name }

variable (registry : Registry)

mutual
/-- The runs that make one node. -/
inductive Instantiates : Context → String → Option Expr → Bool → Layout String → Context → Prop
  | unknown {context : Context} {name : String} {explicit : Option Expr} {nested : Bool} :
      registry.get? name = none →
      Instantiates context name explicit nested (.leaf (context.node name .empty true))
        (context.count.report (.unknownTemplate name))
  | cut {context : Context} {name : String} {explicit : Option Expr} {template : Template} :
      registry.get? name = some template → name ∈ context.active →
      Instantiates context name explicit true
        (.leaf (context.node name template.styles true)) context.count
  | empty {context : Context} {name : String} {nested : Bool} {template : Template} :
      registry.get? name = some template → ¬ (nested = true ∧ name ∈ context.active) →
      template.content = none →
      Instantiates context name none nested
        (.leaf (context.node name template.styles false)) context.count
  | entered {context after : Context} {name : String} {explicit : Option Expr}
      {nested : Bool} {template : Template} {content : Expr} {layout : Layout String} :
      registry.get? name = some template → name ∉ context.active →
      explicit.or template.content = some content →
      Unrolls (context.count.enter name) true content layout after →
      Instantiates context name explicit nested
        (.box (context.node name template.styles false) layout) (after.leave name)
  | reentered {context after : Context} {name : String} {explicit : Option Expr}
      {template : Template} {content : Expr} {layout : Layout String} :
      registry.get? name = some template → name ∈ context.active →
      explicit.or template.content = some content →
      Unrolls context.count true content layout after →
      Instantiates context name explicit false
        (.box (context.node name template.styles false) layout) after

/-- The runs that make the layout of an expression. -/
inductive Unrolls : Context → Bool → Expr → Layout String → Context → Prop
  | entity {context after : Context} {nested : Bool} {name : String}
      {layout : Layout String} :
      Instantiates context name none nested layout after →
      Unrolls context nested (.entity name) layout after
  | container {context after : Context} {nested : Bool} {name : String} {content : Expr}
      {layout : Layout String} :
      Instantiates context name (some content) false layout after →
      Unrolls context nested (.container name content) layout after
  | group {context after : Context} {nested : Bool} {direction : Direction}
      {children : List Expr} {layouts : List (Layout String)} :
      UnrollsAll context nested children layouts after →
      Unrolls context nested (.group direction children) (.group direction layouts) after

inductive UnrollsAll : Context → Bool → List Expr → List (Layout String) → Context → Prop
  | nil {context : Context} {nested : Bool} : UnrollsAll context nested [] [] context
  | cons {context middle after : Context} {nested : Bool} {item : Expr} {rest : List Expr}
      {layout : Layout String} {layouts : List (Layout String)} :
      Unrolls context nested item layout middle →
      UnrollsAll middle nested rest layouts after →
      UnrollsAll context nested (item :: rest) (layout :: layouts) after
end

/-- The context after a layout has been placed in it. -/
def place (context : Context) (layout : Layout Unit) : Context :=
  { context with toSession := (context.toSession.place registry layout).2 }

end Context

namespace Registry

variable {registry : Registry} {path : List String} {nested : Bool} {name : String}
  {explicit : Option Expr} {template : Template}

theorem expand_request_unknown (missing : registry.get? name = none) :
    registry.expand path nested (explicit.elim (.entity name) (.container name)) =
      .leaf ⟨(), name, .empty, true⟩ := by
  cases explicit with
  | none => exact expand_entity_unknown missing
  | some content => exact expand_container_unknown missing

theorem expand_request (found : registry.get? name = some template)
    (uncut : explicit = none → ¬ (nested = true ∧ name ∈ path)) :
    registry.expand path nested (explicit.elim (.entity name) (.container name)) =
      (⟨⟨(), name, template.styles, false⟩,
        (explicit.or template.content).map (registry.expand (name :: path) true)⟩ :
          Block Unit).layout := by
  cases explicit with
  | none => exact expand_entity found (uncut rfl)
  | some content => exact expand_container found

theorem unknownTemplates_box {node : Node ι} {content : Layout ι}
    (known : registry.contains node.template = true) :
    registry.unknownTemplates (.box node content) = registry.unknownTemplates content := by
  simp [unknownTemplates, Layout.nodes, known]

end Registry

namespace Context

variable {registry : Registry} {context after : Context} {path : List String}
  {nested : Bool} {name : String} {template : Template}

/-- The path and the active names are the same set. -/
def Follows (context : Context) (path : List String) : Prop :=
  ∀ name, name ∈ context.active ↔ name ∈ path

theorem Follows.enter (follows : context.Follows path) (name : String) :
    (context.enter name).Follows (name :: path) := by
  intro other
  simp [Context.enter, follows other]

theorem Follows.cons_of_mem (follows : context.Follows path) (on : name ∈ context.active) :
    context.Follows (name :: path) := by
  intro other
  rw [List.mem_cons, ← follows other]
  constructor
  · exact .inr
  · intro known
    obtain rfl | active := known
    · exact on
    · exact active

theorem Follows.place (follows : context.Follows path) (layout : Layout Unit) :
    (context.place registry layout).Follows path :=
  follows

theorem place_box (found : registry.get? name = some template) (layout : Layout Unit) :
    context.count.place registry layout =
      context.place registry (.box ⟨(), name, template.styles, false⟩ layout) := by
  simp [Context.place, Context.count, Session.place, Layout.size,
    Registry.unknownTemplates_box, Registry.contains_of_get? found]
  omega

theorem leave_place_entered (found : registry.get? name = some template)
    (off : name ∉ context.active) (layout : Layout Unit) :
    ((context.count.enter name).place registry layout).leave name =
      context.place registry (.box ⟨(), name, template.styles, false⟩ layout) := by
  rw [← place_box found]
  simp [Context.leave, Context.place, Context.enter, Context.count, Session.place,
    Finset.erase_insert off]

theorem place_leaf (found : registry.get? name = some template) (styles : StyleMap)
    (terminated : Bool) :
    context.count = context.place registry (.leaf ⟨(), name, styles, terminated⟩) := by
  simp [Context.place, Context.count, Session.place, Layout.size, Layout.nodes,
    Registry.unknownTemplates, Registry.contains_of_get? found]

theorem place_leaf_unknown (missing : registry.get? name = none) (styles : StyleMap)
    (terminated : Bool) :
    context.count.report (.unknownTemplate name) =
      context.place registry (.leaf ⟨(), name, styles, terminated⟩) := by
  simp [Context.place, Context.count, Context.report, Session.place, Layout.size, Layout.nodes,
    Registry.unknownTemplates, Registry.not_contains_of_get? missing]

theorem foldl_place (direction : Direction) (context : Context) (layouts : List (Layout Unit)) :
    layouts.foldl (Context.place registry) context =
      context.place registry (.group direction layouts) := by
  induction layouts generalizing context with
  | nil => simp [Context.place, Session.place, Layout.size, Layout.sizeAll, Layout.nodes,
      Layout.nodesAll, Registry.unknownTemplates]
  | cons layout rest ih =>
      rw [List.foldl_cons, ih]
      simp [Context.place, Session.place, Layout.size, Layout.sizeAll, Layout.nodes,
        Layout.nodesAll, Registry.unknownTemplates, Nat.add_assoc]

mutual
/-- A run gives what the path tells, in the ranks that come next. -/
theorem Instantiates.eq {context after : Context} {path : List String} {nested : Bool}
    {name : String} {explicit : Option Expr} {layout : Layout String} :
    Instantiates registry context name explicit nested layout after →
    context.Follows path → (explicit.isSome = true → nested = false ∨ name ∉ path) →
    let unrolled := registry.expand path nested (explicit.elim (.entity name) (.container name))
    layout = unrolled.number context.rank ∧ after = context.place registry unrolled
  | .unknown missing, follows, _ => by
      rw [Registry.expand_request_unknown missing]
      exact ⟨rfl, place_leaf_unknown missing _ _⟩
  | .cut found on, follows, explicitUncut => by
      have onPath := (follows _).mp on
      cases explicit with
      | some content =>
          rcases explicitUncut rfl with notNested | off
          · cases notNested
          · exact absurd onPath off
      | none =>
          rw [Option.elim_none, Registry.expand_entity_cut found ⟨rfl, onPath⟩]
          exact ⟨rfl, place_leaf found _ _⟩
  | .empty found uncut bare, follows, _ => by
      rw [Registry.expand_request found fun _ => by rwa [← follows]]
      simp only [Option.or_none, bare, Option.map_none, Block.layout]
      exact ⟨rfl, place_leaf found _ _⟩
  | .entered found off chosen inner, follows, _ => by
      -- what was entered here is left here, so the set is the path again
      obtain ⟨rfl, rfl⟩ := Unrolls.eq inner (follows.enter _)
      rw [Registry.expand_request found fun _ uncut => off ((follows _).mpr uncut.2)]
      simp only [chosen, Option.map_some, Block.layout]
      exact ⟨rfl, leave_place_entered found off _⟩
  | .reentered found on chosen inner, follows, _ => by
      obtain ⟨rfl, rfl⟩ := Unrolls.eq inner (follows.cons_of_mem on)
      rw [Registry.expand_request found (by simp)]
      simp only [chosen, Option.map_some, Block.layout]
      exact ⟨rfl, place_box found _⟩

theorem Unrolls.eq {context after : Context} {path : List String} {nested : Bool}
    {expression : Expr} {layout : Layout String} :
    Unrolls registry context nested expression layout after → context.Follows path →
    layout = (registry.expand path nested expression).number context.rank ∧
      after = context.place registry (registry.expand path nested expression)
  | .entity inner, follows => inner.eq follows (by simp)
  | .container inner, follows => by
      rw [Registry.expand_container_nested nested false]
      exact inner.eq follows (by simp)
  | .group inner, follows => by
      obtain ⟨rfl, rfl⟩ := inner.eq follows
      rw [Registry.expand]
      exact ⟨rfl, foldl_place _ _ _⟩

theorem UnrollsAll.eq {context after : Context} {path : List String} {nested : Bool}
    {items : List Expr} {layouts : List (Layout String)} :
    UnrollsAll registry context nested items layouts after → context.Follows path →
    layouts = Layout.numberAll context.rank (registry.expandAll path nested items) ∧
      after = (registry.expandAll path nested items).foldl (Context.place registry) context
  | .nil, follows => by
      rw [Registry.expandAll]
      exact ⟨rfl, rfl⟩
  | .cons first rest, follows => by
      obtain ⟨layoutEqual, middleEqual⟩ := first.eq follows
      obtain ⟨restEqual, afterEqual⟩ := rest.eq (middleEqual ▸ follows.place _)
      rw [restEqual, afterEqual, layoutEqual, middleEqual, Registry.expandAll]
      exact ⟨rfl, rfl⟩
end

theorem unrolls_expand (registry : Registry) (path : List String) (nested : Bool)
    (expression : Expr) : ∀ {context : Context}, context.Follows path →
      Unrolls registry context nested expression
        ((registry.expand path nested expression).number context.rank)
        (context.place registry (registry.expand path nested expression)) := by
  refine Registry.expand.induct registry
    (fun path nested expression => ∀ {context : Context}, context.Follows path →
      Unrolls registry context nested expression
        ((registry.expand path nested expression).number context.rank)
        (context.place registry (registry.expand path nested expression)))
    (fun path nested items => ∀ {context : Context}, context.Follows path →
      UnrollsAll registry context nested items
        (Layout.numberAll context.rank (registry.expandAll path nested items))
        ((registry.expandAll path nested items).foldl (Context.place registry) context))
    ?unknown ?cut ?empty ?stored ?group ?unknownContainer ?container ?nil ?cons
    path nested expression
  case unknown =>
    intro path nested name missing context follows
    rw [Registry.expand_entity_unknown missing, ← place_leaf_unknown missing]
    exact .entity (.unknown missing)
  case cut =>
    intro path nested name template found cut context follows
    obtain ⟨rfl, on⟩ := cut
    rw [Registry.expand_entity_cut found ⟨rfl, on⟩, ← place_leaf found]
    exact .entity (.cut found ((follows _).mpr on))
  case empty =>
    intro path nested name template found uncut bare context follows
    rw [Registry.expand_entity found uncut]
    simp only [bare, Option.map_none, Block.layout]
    rw [← place_leaf found]
    exact .entity (.empty found (by rwa [follows]) bare)
  case stored =>
    intro path nested name template found uncut content stored ih context follows
    rw [Registry.expand_entity found uncut]
    simp only [stored, Option.map_some, Block.layout]
    -- a name that is active already was entered further out, so it stays
    by_cases on : name ∈ context.active
    · have notNested : nested = false := by
        rw [← Bool.not_eq_true]
        exact fun isNested => uncut ⟨isNested, (follows _).mp on⟩
      subst notNested
      rw [← place_box found]
      exact .entity (.reentered found on stored (ih (follows.cons_of_mem on)))
    · rw [← leave_place_entered found on]
      exact .entity (.entered found on stored (ih (follows.enter name)))
  case group =>
    intro path nested direction children ih context follows
    rw [Registry.expand, ← foldl_place]
    exact .group (ih follows)
  case unknownContainer =>
    intro path nested name content missing context follows
    rw [Registry.expand_container_unknown missing, ← place_leaf_unknown missing]
    exact .container (.unknown missing)
  case container =>
    intro path nested name content template found ih context follows
    rw [Registry.expand_container found]
    by_cases on : name ∈ context.active
    · rw [← place_box found]
      exact .container (.reentered found on rfl (ih (follows.cons_of_mem on)))
    · rw [← leave_place_entered found on]
      exact .container (.entered found on rfl (ih (follows.enter name)))
  case nil =>
    intro path nested context follows
    rw [Registry.expandAll]
    exact .nil
  case cons =>
    intro path nested item rest ihItem ihRest context follows
    rw [Registry.expandAll]
    exact .cons (ihItem follows) (ihRest (follows.place _))

/-- An entity that no cut threatens is made alike inside and outside a content. -/
theorem Instantiates.of_not_mem {explicit : Option Expr} {layout : Layout String}
    (instantiates : Instantiates registry context name explicit false layout after)
    (off : name ∉ context.active) (nested : Bool) :
    Instantiates registry context name explicit nested layout after := by
  cases instantiates with
  | unknown missing => exact .unknown missing
  | empty found _ bare => exact .empty found (fun cut => off cut.2) bare
  | entered found off chosen inner => exact .entered found off chosen inner
  | reentered _ on => exact absurd on off

end Context

def Call.Runs (registry : Registry) (context : Context) :
    Call → Layout String → Context → Prop
  | .layout expression nested => Context.Unrolls registry context nested expression
  | .entity name explicit nested => Context.Instantiates registry context name explicit nested

/-- While no name is active, a call has one run: it ends in the layout that the session
places next, and no name is active then. -/
theorem Call.runs_iff {registry : Registry} {context : Context} (idle : context.active = ∅)
    (call : Call) (layout : Layout String) (after : Context) :
    call.Runs registry context layout after ↔
      (layout, after) =
        ((context.toSession.place registry (call.unroll registry)).1,
          context.place registry (call.unroll registry)) := by
  have follows : context.Follows [] := fun name => by simp [idle]
  have off : ∀ name, name ∉ context.active := fun name => by simp [idle]
  rw [Prod.mk.injEq]
  constructor
  · intro runs
    cases call with
    | layout expression nested => exact runs.eq follows
    | entity name explicit nested => exact runs.eq follows (by simp)
  · intro placed
    obtain ⟨rfl, rfl⟩ := placed
    have unrolls := Context.unrolls_expand registry [] call.nested call.source follows
    rw [← call.unroll_eq] at unrolls
    cases call with
    | layout expression nested => exact unrolls
    | entity name explicit nested =>
        cases explicit with
        | none =>
            cases unrolls with
            | entity instantiates => exact instantiates
        | some content =>
            cases unrolls with
            | container instantiates => exact instantiates.of_not_mem (off name) nested

namespace Context

/-- The contexts before, between and after the calls of one expansion. -/
inductive Reached (registry : Registry) : Context → Prop
  | start : Reached registry ⟨.start, ∅⟩
  | call {context after : Context} {call : Call} {layout : Layout String} :
      Reached registry context → call.Runs registry context layout after →
      Reached registry after

variable {registry : Registry} {context : Context}

/-- No name is active between two calls. -/
theorem Reached.idle (reached : context.Reached registry) : context.active = ∅ := by
  induction reached with
  | start => rfl
  | call _ runs idle =>
      obtain ⟨-, rfl⟩ := Prod.mk.inj ((Call.runs_iff idle _ _ _).mp runs)
      exact idle

theorem Reached.runs_iff (reached : context.Reached registry) {call : Call}
    {layout : Layout String} {after : Context} :
    call.Runs registry context layout after ↔
      layout = (context.toSession.place registry (call.unroll registry)).1 ∧
        after = context.place registry (call.unroll registry) := by
  rw [Call.runs_iff reached.idle, Prod.mk.injEq]

end Context

end Wireframe
