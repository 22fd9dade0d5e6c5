import Wireframe.Compilation
import Wireframe.Proofs.Expansion.Context

/-! One context that is asked for one layout after another. The scenes of a document are
the answers to such a run of calls. -/

namespace Wireframe

namespace Context

/-- The layouts that a context answers calls with, and the context after them. -/
inductive Answers (registry : Registry) :
    Context → List Call → List (Layout String) → Context → Prop
  | nil {context : Context} : Answers registry context [] [] context
  | cons {context middle after : Context} {call : Call} {calls : List Call}
      {layout : Layout String} {layouts : List (Layout String)} :
      call.Runs registry context layout middle →
      Answers registry middle calls layouts after →
      Answers registry context (call :: calls) (layout :: layouts) after

variable {registry : Registry} {context after : Context}

theorem Reached.place (reached : context.Reached registry) (call : Call) :
    (context.place registry (call.unroll registry)).Reached registry :=
  reached.call (reached.runs_iff.mpr ⟨rfl, rfl⟩)

/-- Calls have one run: each layout is numbered after those before it. -/
theorem Reached.answers_iff (reached : context.Reached registry) {calls : List Call}
    {layouts : List (Layout String)} :
    Answers registry context calls layouts after ↔
      layouts = Layout.numberAll context.rank (calls.map (Call.unroll registry)) ∧
        after = (calls.map (Call.unroll registry)).foldl (Context.place registry) context := by
  induction calls generalizing context layouts with
  | nil =>
      constructor
      · intro answers
        cases answers
        exact ⟨rfl, rfl⟩
      · intro equal
        obtain ⟨rfl, rfl⟩ := equal
        exact .nil
  | cons call calls ih =>
      have placed := reached.place call
      constructor
      · intro answers
        cases answers with
        | cons runs rest =>
            obtain ⟨rfl, rfl⟩ := reached.runs_iff.mp runs
            obtain ⟨rfl, rfl⟩ := (ih placed).mp rest
            exact ⟨rfl, rfl⟩
      · intro equal
        obtain ⟨rfl, rfl⟩ := equal
        exact .cons (reached.runs_iff.mpr ⟨rfl, rfl⟩) ((ih placed).mpr ⟨rfl, rfl⟩)

theorem rank_foldl_place (layouts : List (Layout Unit)) :
    (layouts.foldl (Context.place registry) context).rank =
      context.rank + Layout.sizeAll layouts := by
  rw [foldl_place .row]
  rfl

theorem diagnostics_foldl_place (layouts : List (Layout Unit)) :
    (layouts.foldl (Context.place registry) context).diagnostics =
      context.diagnostics ++ layouts.flatMap registry.unknownTemplates := by
  rw [foldl_place .row]
  simp only [Context.place, Session.place, Registry.unknownTemplates, Layout.nodes,
    Layout.nodesAll_eq_flatMap, List.filter_flatMap, List.map_flatMap]
  rfl

end Context

namespace Document

/-- What a context is asked for: the expressions of the layout lines or, without any, the
roots. -/
def calls (document : Document) (roots : List String) : List Call :=
  if document.expressions.isEmpty then
    let names := if roots.isEmpty then document.templates.inferRoots else roots
    names.map fun name => .entity name none true
  else document.expressions.map fun expression => .layout expression false

/-- What the scenes are unrolled from. -/
def places (document : Document) (roots : List String) : List Expr :=
  if document.expressions.isEmpty then
    let names := if roots.isEmpty then document.templates.inferRoots else roots
    names.map .entity
  else document.expressions

variable (document : Document) (roots : List String)

theorem places_of_structured (structured : document.expressions ≠ []) :
    document.places roots = document.expressions := by
  rw [places, if_neg]
  simpa using structured

theorem places_of_unstructured (unstructured : document.expressions = []) :
    document.places roots =
      (if roots = [] then document.templates.inferRoots else roots).map .entity := by
  simp [places, unstructured]

theorem map_unroll_calls :
    (document.calls roots).map (Call.unroll document.templates) = document.scenes roots := by
  unfold calls scenes
  split
  · rw [List.map_map]
    rfl
  · rw [List.map_map]
    rfl

theorem map_source_calls : (document.calls roots).map Call.source = document.places roots := by
  unfold calls places
  split
  · rw [List.map_map]
    rfl
  · rw [List.map_map]
    exact List.map_id _

/-- Expansion asks one context for the scenes in turn. -/
theorem answers_expand : ∃ after,
    Context.Answers document.templates ⟨.start, ∅⟩ (document.calls roots)
      (document.expand roots).scenes after ∧
    after.diagnostics = (document.expand roots).diagnostics := by
  refine ⟨_, Context.Reached.start.answers_iff.mpr ⟨?_, rfl⟩, ?_⟩
  · rw [map_unroll_calls]
    rfl
  · rw [map_unroll_calls, Context.diagnostics_foldl_place]
    rfl

end Document

end Wireframe
