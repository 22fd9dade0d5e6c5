import Wireframe.Proofs.Expansion.Ancestry
import Wireframe.Proofs.Expansion.Numbering

/-! The calls on one context have nothing to do with each other. Each is answered as by a
context of its own, only that its nodes take the ranks after those made before. -/

namespace Wireframe

def Node.shift (offset : Nat) (node : Node String) : Node String :=
  { node with id := node.template ++ "_" ++ toString (readRank node.id + offset) }

theorem Node.shift_number (offset rank : Nat) (node : Node ι) :
    (node.number rank).shift offset = node.number (rank + offset) := by
  simp only [shift, number, readRank_append]

namespace Layout

mutual
/-- A layout whose ranks start `offset` later. -/
def shift (offset : Nat) : Layout String → Layout String
  | .leaf node => .leaf (node.shift offset)
  | .box node content => .box (node.shift offset) (content.shift offset)
  | .group direction children => .group direction (shiftEach offset children)

def shiftEach (offset : Nat) : List (Layout String) → List (Layout String)
  | [] => []
  | item :: rest => item.shift offset :: shiftEach offset rest
end

/-- Layouts in a row, each shifted by the number of nodes before it. -/
def shiftAfter (offset : Nat) : List (Layout String) → List (Layout String)
  | [] => []
  | item :: rest => item.shift offset :: shiftAfter (offset + item.nodes.length) rest

mutual
theorem shift_number (offset rank : Nat) : (layout : Layout ι) →
    (layout.number rank).shift offset = layout.number (rank + offset)
  | .leaf node => by rw [number, shift, number, node.shift_number]
  | .box node content => by
      rw [number, shift, number, node.shift_number, shift_number offset (rank + 1) content,
        Nat.add_right_comm]
  | .group _ children => by rw [number, shift, number, shiftEach_numberAll offset rank children]

theorem shiftEach_numberAll (offset rank : Nat) : (items : List (Layout ι)) →
    shiftEach offset (numberAll rank items) = numberAll (rank + offset) items
  | [] => rfl
  | item :: rest => by
      rw [numberAll, shiftEach, numberAll, shift_number offset rank item,
        shiftEach_numberAll offset (rank + item.size) rest, Nat.add_right_comm]
end

theorem length_nodes_number (rank : Nat) (layout : Layout ι) :
    (layout.number rank).nodes.length = layout.size := by
  rw [nodes_number, List.length_map, List.length_zipIdx, length_nodes]

theorem shiftAfter_map_number (offset rank : Nat) (layouts : List (Layout ι)) :
    shiftAfter offset (layouts.map (number rank)) = numberAll (rank + offset) layouts := by
  induction layouts generalizing offset with
  | nil => rfl
  | cons layout rest ih =>
      rw [List.map_cons, shiftAfter, numberAll, shift_number, length_nodes_number, ih,
        Nat.add_assoc]

theorem map_forget_numberAll (rank : Nat) (layouts : List (Layout Unit)) :
    (numberAll rank layouts).map forget = layouts := by
  rw [← forgetAll_eq_map, forgetAll_numberAll]

end Layout

/-- What a new context answers to a call, and what it has met by then. -/
def Call.alone (registry : Registry) (call : Call) : Layout String × Session :=
  Session.start.place registry (call.unroll registry)

namespace Context

variable {registry : Registry} {calls permuted : List Call}
  {layouts permutedLayouts : List (Layout String)} {after permutedAfter : Context}

theorem runs_start_iff (call : Call) (layout : Layout String) :
    call.Runs registry ⟨.start, ∅⟩ layout after ↔
      layout = (call.alone registry).1 ∧ after = ⟨(call.alone registry).2, ∅⟩ :=
  Reached.start.runs_iff

theorem answers_start_iff :
    Answers registry ⟨.start, ∅⟩ calls layouts after ↔
      layouts = Layout.shiftAfter 0 (calls.map fun call => (call.alone registry).1) ∧
        after = (calls.map (Call.unroll registry)).foldl (place registry) ⟨.start, ∅⟩ := by
  have alone : calls.map (fun call => (call.alone registry).1) =
      (calls.map (Call.unroll registry)).map (Layout.number 1) := by
    rw [List.map_map]
    rfl
  rw [alone, Layout.shiftAfter_map_number]
  exact Reached.start.answers_iff

namespace Answers

theorem diagnostics_eq (answers : Answers registry ⟨.start, ∅⟩ calls layouts after) :
    after.diagnostics = calls.flatMap fun call => (call.alone registry).2.diagnostics := by
  obtain ⟨-, rfl⟩ := Reached.start.answers_iff.mp answers
  rw [diagnostics_foldl_place, List.flatMap_map]
  rfl

/-- Each call keeps its tree, wherever it stands among the others. -/
theorem zip_forget (answers : Answers registry ⟨.start, ∅⟩ calls layouts after) :
    calls.zip (layouts.map Layout.forget) =
      calls.map fun call => (call, call.unroll registry) := by
  obtain ⟨rfl, -⟩ := Reached.start.answers_iff.mp answers
  rw [Layout.map_forget_numberAll, List.map_prod_left_eq_zip]

theorem perm (answers : Answers registry ⟨.start, ∅⟩ calls layouts after)
    (others : Answers registry ⟨.start, ∅⟩ permuted permutedLayouts permutedAfter)
    (permutes : permuted.Perm calls) :
    (permuted.zip (permutedLayouts.map Layout.forget)).Perm
        (calls.zip (layouts.map Layout.forget)) ∧
      permutedAfter.diagnostics.Perm after.diagnostics := by
  constructor
  · rw [answers.zip_forget, others.zip_forget]
    exact permutes.map _
  · rw [answers.diagnostics_eq, others.diagnostics_eq]
    exact permutes.flatMap_right _

end Answers

/-- No call leaves a name active. A sequence of calls is answered by what each call gets
alone, in ranks that start after the nodes made before, and with all diagnostics in turn.
In another order the calls get the same trees, ranked in that order. The scenes of a
document are such answers. -/
theorem calls_independent (registry : Registry) :
    (∀ context : Context, context.Reached registry → context.active = ∅) ∧
    (∀ (call : Call) (layout : Layout String) (after : Context),
      call.Runs registry ⟨.start, ∅⟩ layout after ↔
        layout = (call.alone registry).1 ∧ after = ⟨(call.alone registry).2, ∅⟩) ∧
    (∀ calls : List Call,
      let layouts := Layout.shiftAfter 0 (calls.map fun call => (call.alone registry).1)
      ∃ after,
        (∀ other otherAfter, Answers registry ⟨.start, ∅⟩ calls other otherAfter ↔
          other = layouts ∧ otherAfter = after) ∧
        after.active = ∅ ∧
        after.diagnostics = calls.flatMap (fun call => (call.alone registry).2.diagnostics) ∧
        ∀ permuted : List Call, permuted.Perm calls → ∀ other otherAfter,
          Answers registry ⟨.start, ∅⟩ permuted other otherAfter →
            (permuted.zip (other.map Layout.forget)).Perm
              (calls.zip (layouts.map Layout.forget)) ∧
            Ranked (other.flatMap Layout.nodes) ∧
            otherAfter.diagnostics.Perm after.diagnostics) ∧
    ∀ (document : Document) (roots : List String), document.templates = registry →
      ∃ after,
        Answers registry ⟨.start, ∅⟩ (document.calls roots) (document.expand roots).scenes after ∧
        after.diagnostics = (document.expand roots).diagnostics := by
  refine ⟨?idle, ?alone, ?sequence, ?scenes⟩
  case idle =>
    intro context reached
    exact reached.idle
  case alone =>
    intro call layout after
    exact runs_start_iff call layout
  case sequence =>
    intro calls layouts
    have answers : Answers registry ⟨.start, ∅⟩ calls layouts _ :=
      answers_start_iff.mpr ⟨rfl, rfl⟩
    refine ⟨_, fun _ _ => answers_start_iff, ?_, answers.diagnostics_eq, ?_⟩
    · rw [foldl_place .row]
      rfl
    · intro permuted permutes other otherAfter others
      obtain ⟨trees, diagnostics⟩ := answers.perm others permutes
      exact ⟨trees, others.ranked, diagnostics⟩
  case scenes =>
    intro document roots same
    subst same
    exact document.answers_expand roots

end Context

end Wireframe
