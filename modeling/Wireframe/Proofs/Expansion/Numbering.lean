import Wireframe.Proofs.Expansion.Scenes

/-! The names of nodes. A node is named by its template and its rank among all nodes, so
the rank can be read back from what stands after the last underscore, whatever the template
is called. -/

namespace Wireframe

/-- The number after the last underscore. -/
def Node.readRank (id : String) : Nat :=
  Nat.ofDigitChars 10 (id.toList.reverse.takeWhile (· ≠ '_')).reverse 0

theorem Node.readRank_append (template : String) (rank : Nat) :
    readRank (template ++ "_" ++ toString rank) = rank := by
  let digits := (Nat.toDigits 10 rank).reverse
  have noUnderscore : ∀ c ∈ digits, decide (c ≠ '_') = true := by
    intro c member
    have digit := Nat.isDigit_of_mem_toDigits (by decide) (by decide) (List.mem_reverse.mp member)
    rw [decide_eq_true_iff]
    intro same
    rw [same] at digit
    cases digit
  have reversed : (template ++ "_" ++ toString rank).toList.reverse =
      digits ++ '_' :: template.toList.reverse := by
    simp [digits]
  rw [readRank, reversed, List.takeWhile_append_of_pos noUnderscore]
  simp [digits]

/-- Nodes in an order in which each is named by its template and its place, from one on. -/
def Ranked (nodes : List (Node String)) : Prop :=
  ∀ index node, nodes[index]? = some node →
    node.id = node.template ++ "_" ++ toString (index + 1)

theorem Ranked.nodup {nodes : List (Node String)} (ranked : Ranked nodes) :
    (nodes.map (·.id)).Nodup := by
  have rank : ∀ index (bound : index < nodes.length),
      Node.readRank nodes[index].id = index + 1 := by
    intro index bound
    rw [ranked index nodes[index] (List.getElem?_eq_getElem bound), Node.readRank_append]
  unfold List.Nodup
  rw [List.pairwise_map, List.pairwise_iff_getElem]
  intro first second firstBound secondBound less same
  have equal := congrArg Node.readRank same
  rw [rank first firstBound, rank second secondBound] at equal
  omega

theorem ranked_numberAll (layouts : List (Layout Unit)) :
    Ranked ((Layout.numberAll 1 layouts).flatMap Layout.nodes) := by
  intro index node found
  rw [← Layout.nodesAll_eq_flatMap, Layout.nodes_numberAll, List.getElem?_map,
    List.getElem?_zipIdx, Option.map_map] at found
  obtain ⟨unnamed, -, rfl⟩ := Option.map_eq_some_iff.mp found
  rw [Nat.add_comm index 1]
  rfl

theorem Layout.length_nodes_numberAll (rank : Nat) (layouts : List (Layout Unit)) :
    ((numberAll rank layouts).flatMap nodes).length = sizeAll layouts := by
  rw [← nodesAll_eq_flatMap, nodes_numberAll, List.length_map, List.length_zipIdx,
    length_nodesAll]

namespace Context.Answers

variable {registry : Registry} {calls : List Call} {layouts : List (Layout String)}
  {after : Context}

theorem ranked (answers : Answers registry ⟨.start, ∅⟩ calls layouts after) :
    Ranked (layouts.flatMap Layout.nodes) := by
  obtain ⟨rfl, -⟩ := Reached.start.answers_iff.mp answers
  exact ranked_numberAll _

theorem rank_after (answers : Answers registry ⟨.start, ∅⟩ calls layouts after) :
    after.rank = (layouts.flatMap Layout.nodes).length + 1 := by
  obtain ⟨rfl, rfl⟩ := Reached.start.answers_iff.mp answers
  rw [rank_foldl_place, Layout.length_nodes_numberAll, Nat.add_comm]
  rfl

end Context.Answers

/-- The nodes of all scenes, each before its content, are named by their ranks, so no two
have one name. Calls on one context, whatever they are, go on with the next rank. -/
theorem Compilation.nodes_ranked (resolve : Resolver) (purpose : Purpose)
    (roots : List String) (source : String) :
    let nodes := (ofSource resolve purpose roots source).scenes.flatMap Layout.nodes
    Ranked nodes ∧ (nodes.map (·.id)).Nodup ∧
      ∀ (registry : Registry) (calls : List Call), ∃ layouts after,
        (∀ other otherAfter, Context.Answers registry ⟨.start, ∅⟩ calls other otherAfter ↔
          other = layouts ∧ otherAfter = after) ∧
        let nodes := layouts.flatMap Layout.nodes
        Ranked nodes ∧ (nodes.map (·.id)).Nodup ∧ after.rank = nodes.length + 1 := by
  obtain ⟨after, scenes, -⟩ := (Document.parse resolve source).answers_expand roots
  refine ⟨scenes.ranked, scenes.ranked.nodup, ?_⟩
  intro registry calls
  have answers : Context.Answers registry ⟨.start, ∅⟩ calls _ _ :=
    Context.Reached.start.answers_iff.mpr ⟨rfl, rfl⟩
  refine ⟨_, _, fun _ _ => Context.Reached.start.answers_iff, ?_⟩
  exact ⟨answers.ranked, answers.ranked.nodup, answers.rank_after⟩

end Wireframe
