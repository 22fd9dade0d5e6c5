import Mathlib.Algebra.Ring.Nat
import Wireframe.Proofs.Expansion.Context

/-! How deep an expansion may nest. Every content that is unrolled is either written in
the expression or stored in a template; a stored one is unrolled only while its name is
off the path, so each template pays for its content once. -/

namespace Wireframe

mutual
/-- The most names inside each other. -/
def Expr.nesting : Expr → Nat
  | .entity _ => 1
  | .group _ children => Expr.nestingAll children
  | .container _ content => content.nesting + 1

def Expr.nestingAll : List Expr → Nat
  | [] => 0
  | item :: rest => max item.nesting (Expr.nestingAll rest)
end

def Template.nesting (template : Template) : Nat :=
  template.content.elim 0 Expr.nesting

namespace Layout

mutual
/-- The most nodes on a way down. -/
def depth : Layout ι → Nat
  | .leaf _ => 1
  | .box _ content => content.depth + 1
  | .group _ children => depthAll children

def depthAll : List (Layout ι) → Nat
  | [] => 0
  | item :: rest => max item.depth (depthAll rest)
end

mutual
theorem depth_number (rank : Nat) : (layout : Layout ι) →
    (layout.number rank).depth = layout.depth
  | .leaf _ => rfl
  | .box _ content => by rw [number, depth, depth, depth_number (rank + 1) content]
  | .group _ children => by rw [number, depth, depth, depthAll_numberAll rank children]

theorem depthAll_numberAll (rank : Nat) : (items : List (Layout ι)) →
    depthAll (numberAll rank items) = depthAll items
  | [] => rfl
  | item :: rest => by
      rw [numberAll, depthAll, depthAll, depth_number rank item,
        depthAll_numberAll (rank + item.size) rest]
end

theorem depth_leaf_le (node : Node ι) (bound : Nat) : (leaf node).depth ≤ 1 + bound :=
  Nat.le_add_right 1 bound

end Layout

namespace Template

/-- What the content of a template may still add below the names on a path. -/
def unspent (path : List String) (template : Template) : Nat :=
  if template.name ∈ path then 0 else template.nesting

theorem unspent_nil (template : Template) : template.unspent [] = template.nesting := rfl

theorem unspent_cons_le (name : String) (path : List String) (template : Template) :
    template.unspent (name :: path) ≤ template.unspent path := by
  by_cases on : template.name ∈ path
  · simp [unspent, on]
  · simp only [unspent, on, if_false]
    split <;> omega

theorem unspent_cons_self (path : List String) (template : Template) :
    template.unspent (template.name :: path) = 0 := by
  simp [unspent]

end Template

namespace Registry

def unspent (registry : Registry) (path : List String) : Nat :=
  (registry.templates.map (Template.unspent path)).sum

theorem unspent_nil (registry : Registry) :
    registry.unspent [] = (registry.templates.map Template.nesting).sum := rfl

theorem sum_unspent_cons_le (name : String) (path : List String) (templates : List Template) :
    (templates.map (Template.unspent (name :: path))).sum ≤
      (templates.map (Template.unspent path)).sum := by
  induction templates with
  | nil => exact Nat.le_refl 0
  | cons first rest ih =>
      have less := first.unspent_cons_le name path
      simp only [List.map_cons, List.sum_cons]
      omega

theorem nesting_add_unspent_le {registry : Registry} {name : String} {template : Template}
    {path : List String} (found : registry.get? name = some template) (off : name ∉ path) :
    template.nesting + registry.unspent (name :: path) ≤ registry.unspent path := by
  have member : template ∈ registry.templates := List.mem_of_find?_eq_some found
  have named : template.name = name := by simpa using List.find?_some found
  subst named
  simp only [unspent]
  generalize registry.templates = templates at member ⊢
  induction templates with
  | nil => cases member
  | cons first rest ih =>
      simp only [List.map_cons, List.sum_cons]
      cases List.mem_cons.mp member with
      | inl same =>
          have restLess := sum_unspent_cons_le template.name path rest
          have whole : template.unspent path = template.nesting := if_neg off
          rw [← same, template.unspent_cons_self, whole]
          omega
      | inr later =>
          have less := first.unspent_cons_le template.name path
          have restLess := ih later
          omega

/-- Below a path, an expression nests as deep as it is written and as the contents that
are off the path allow. -/
theorem depth_expand_le (registry : Registry) (path : List String) (nested : Bool)
    (expression : Expr) (begun : nested = true ∨ path = []) :
    (registry.expand path nested expression).depth ≤
      expression.nesting + registry.unspent path := by
  refine Registry.expand.induct registry
    (fun path nested expression => (nested = true ∨ path = []) →
      (registry.expand path nested expression).depth ≤
        expression.nesting + registry.unspent path)
    (fun path nested items => (nested = true ∨ path = []) →
      Layout.depthAll (registry.expandAll path nested items) ≤
        Expr.nestingAll items + registry.unspent path)
    ?unknown ?cut ?empty ?stored ?group ?unknownContainer ?container ?nil ?cons
    path nested expression begun
  case unknown =>
    intro path nested name missing _
    rw [expand_entity_unknown missing]
    exact Layout.depth_leaf_le _ _
  case cut =>
    intro path nested name template found cut _
    rw [expand_entity_cut found cut]
    exact Layout.depth_leaf_le _ _
  case empty =>
    intro path nested name template found uncut bare _
    rw [expand_entity found uncut, bare]
    exact Layout.depth_leaf_le _ _
  case stored =>
    -- the one jump out of the expression, into a content that is paid for here
    intro path nested name template found uncut content stored ih begun
    have off : name ∉ path := by
      intro on
      cases begun with
      | inl isNested => exact uncut ⟨isNested, on⟩
      | inr fresh => simp [fresh] at on
    have deeper := ih (.inl rfl)
    have spent := nesting_add_unspent_le found off
    rw [expand_entity found uncut, stored]
    simp only [Template.nesting, stored, Option.elim_some] at spent
    simp only [Option.map_some, Block.layout, Layout.depth, Expr.nesting]
    omega
  case group =>
    intro path nested direction children ih begun
    rw [expand]
    exact ih begun
  case unknownContainer =>
    intro path nested name content missing _
    rw [expand_container_unknown missing, Expr.nesting, Layout.depth]
    omega
  case container =>
    intro path nested name content template found ih _
    have deeper := ih (.inl rfl)
    have less := sum_unspent_cons_le name path registry.templates
    rw [expand_container found, Layout.depth, Expr.nesting]
    simp only [unspent] at deeper ⊢
    omega
  case nil =>
    intro path nested _
    rw [expandAll]
    exact Nat.zero_le _
  case cons =>
    intro path nested item rest ihItem ihRest begun
    have itemLess := ihItem begun
    have restLess := ihRest begun
    rw [expandAll, Layout.depthAll, Expr.nestingAll]
    omega

end Registry

/-- Every call comes to an end, in one way only, and its layout nests no deeper than its
expression with the contents of all templates. -/
theorem Context.Reached.ends_within_nesting {registry : Registry} {context : Context}
    (reached : context.Reached registry) (call : Call) :
    ∃ layout after, call.Runs registry context layout after ∧
      (∀ other otherAfter, call.Runs registry context other otherAfter →
        other = layout ∧ otherAfter = after) ∧
      layout = (context.toSession.place registry (call.unroll registry)).1 ∧
      layout.depth ≤ call.source.nesting + (registry.templates.map Template.nesting).sum := by
  refine ⟨_, _, reached.runs_iff.mpr ⟨rfl, rfl⟩, ?_, rfl, ?_⟩
  · intro other otherAfter runs
    exact reached.runs_iff.mp runs
  · rw [Session.place, Layout.depth_number, call.unroll_eq, ← registry.unspent_nil]
    exact registry.depth_expand_le [] call.nested call.source (.inr rfl)

/-- A container inside the content of its own name counts as another level. -/
theorem Context.Reached.ends_within_nesting_start :
    let registry : Registry := ⟨[⟨"a", 1, .empty, some (.container "a" (.entity "a"))⟩]⟩
    ∃ layout after,
      (Call.entity "a" none true).Runs registry ⟨.start, ∅⟩ layout after ∧
      (∀ other otherAfter,
        (Call.entity "a" none true).Runs registry ⟨.start, ∅⟩ other otherAfter →
          other = layout ∧ otherAfter = after) ∧
      layout = (Session.start.place registry (registry.instantiate "a" none true)).1 ∧
      layout.depth ≤ 3 :=
  ends_within_nesting .start (.entity "a" none true)

end Wireframe
