import CostTape.Proofs.Graph.Advice

/-! Validation against recording.  A list of nodes has no flaws exactly if recording its
nodes one after the other changes none of them, and each has the shape of its kind. -/

namespace CostTape

namespace Node

structure HasShape (node : Node) : Prop where
  listed : node.kind.isListed = true
  args_length : ∀ count, node.kind.arity? = some count → node.args.length = count
  symbol_ne : node.kind.needsSymbol = true → node.symbol ≠ ""

/-- All that the node refers to stands before the position. -/
structure RefersBefore (position : Nat) (node : Node) : Prop where
  args : ∀ arg ∈ node.args, arg.precedes position = true
  target : node.kind = .assignment → node.target.precedes position = true

theorem shapeDefects_eq_nil_iff {node : Node} : node.shapeDefects = [] ↔
    node.HasShape := by
  constructor
  · intro shaped
    have listed := isListed_of_shaped shaped
    refine ⟨listed, fun count => length_args_of_shaped shaped, fun needs empty => ?_⟩
    rw [shapeDefects, if_pos listed, List.append_eq_nil_iff] at shaped
    simp [needs, empty] at shaped
  · intro shape
    rw [shapeDefects, if_pos shape.listed, List.append_eq_nil_iff]
    constructor
    · split
      next count fixed => exact if_pos (shape.args_length count fixed)
      next => rfl
    · apply if_neg
      rw [Bool.and_eq_true, beq_iff_eq]
      exact fun lacking => shape.symbol_ne lacking.1 lacking.2

theorem placedAt_eq_self_iff {position : Nat} {node : Node} :
    Graph.placedAt position node = node ↔
      node.id = position ∧ (node.kind ≠ .assignment → node.target = position) := by
  constructor
  · intro kept
    refine ⟨(congrArg Node.id kept).symm, fun own => ?_⟩
    have target := congrArg Node.target kept
    rw [Graph.placedAt, if_neg own] at target
    exact target.symm
  · rintro ⟨placed, targeted⟩
    have target : (if node.kind = .assignment then node.target else position) =
        node.target := by
      split
      next => rfl
      next own => exact (targeted own).symm
    rw [Graph.placedAt, target, ← placed]

theorem fitsAt_iff {position : Nat} {node : Node} :
    node.FitsAt position ↔
      node.RefersBefore position ∧ Graph.placedAt position node = node ∧
        node.HasShape := by
  rw [placedAt_eq_self_iff, ← shapeDefects_eq_nil_iff]
  constructor
  · intro fits
    exact ⟨⟨fits.args_precede, fits.target_precedes⟩, ⟨fits.id_eq, fits.target_eq⟩,
      fits.shaped⟩
  · rintro ⟨refers, ⟨placed, targeted⟩, shaped⟩
    exact ⟨placed, refers.args, refers.target, targeted, shaped⟩

end Node

namespace Graph

/-- Records nodes in their order. -/
def replay (graph : Graph) (nodes : List Node) : Except Fault Graph :=
  nodes.foldlM append graph

def placedFrom (start : Nat) (nodes : List Node) : List Node :=
  (nodes.zipIdx start).map fun (node, position) => placedAt position node

theorem placedFrom_cons (start : Nat) (node : Node) (nodes : List Node) :
    placedFrom start (node :: nodes) =
      placedAt start node :: placedFrom (start + 1) nodes := rfl

theorem replay_cons (graph : Graph) (node : Node) (nodes : List Node) :
    graph.replay (node :: nodes) = graph.append node >>= fun next => next.replay nodes :=
  rfl

theorem refersBefore_of_append {graph next : Graph} {node : Node}
    (accepted : graph.append node = .ok next) : node.RefersBefore graph.size := by
  obtain ⟨-, args, target, -⟩ := append_eq_ok_iff.mp accepted
  exact ⟨args, target⟩

theorem not_refersBefore_of_append {graph : Graph} {node : Node} {fault : Fault}
    (unfrozen : graph.frozen = false) (refused : graph.append node = .error fault) :
    ¬node.RefersBefore graph.size := by
  intro refers
  have accepted := append_eq_ok_iff.mpr ⟨unfrozen, refers.args, refers.target, rfl⟩
  rw [refused] at accepted
  cases accepted

/-- What it takes for all the nodes to be accepted, and what becomes of the graph. -/
theorem replay_eq_ok_iff {graph next : Graph} {nodes : List Node}
    (unfrozen : graph.frozen = false) :
    graph.replay nodes = .ok next ↔
      (∀ entry ∈ nodes.zipIdx graph.size, entry.1.RefersBefore entry.2) ∧
      next =
          { graph with nodes := graph.nodes ++
            (placedFrom graph.size nodes).toArray } := by
  induction nodes generalizing graph with
  | nil => simp [replay, placedFrom, pure, Except.pure, eq_comm]
  | cons node nodes induction =>
      rw [replay_cons, List.zipIdx_cons, List.forall_mem_cons, placedFrom_cons]
      cases accepted : graph.append node with
      | error fault =>
          have refers := not_refersBefore_of_append unfrozen accepted
          constructor
          · intro replayed
            cases replayed
          · exact fun replayed => (refers replayed.1.1).elim
      | ok middle =>
          have refers := refersBefore_of_append accepted
          have frozen := (frozen_of_append accepted).trans unfrozen
          change middle.replay nodes = .ok next ↔ _
          rw [induction frozen, size_of_append accepted, nodes_of_append accepted,
            frozen_of_append accepted]
          simp [refers]

theorem placedFrom_eq_self_iff {start : Nat} {nodes : List Node} :
    placedFrom start nodes = nodes ↔
      ∀ entry ∈ nodes.zipIdx start, placedAt entry.2 entry.1 = entry.1 := by
  rw [← List.map_inj_left, List.zipIdx_map_fst]
  exact Iff.rfl

theorem forall_mem_zipIdx {nodes : Array Node} {condition : Nat → Node → Prop} :
    (∀ entry ∈ nodes.toList.zipIdx, condition entry.2 entry.1) ↔
      ∀ (position : Nat) (node : Node), nodes[position]? = some node →
        condition position node := by
  constructor
  · intro each position node found
    apply each (node, position)
    rw [List.mem_zipIdx_iff_getElem?]
    simpa using found
  · rintro each ⟨node, position⟩ member
    apply each
    simpa using List.mem_zipIdx_iff_getElem?.mp member

/-- Which nodes come back as they are when they are recorded in a new graph. -/
theorem replay_eq_self_iff {nodes : Array Node} :
    (∃ graph, empty.replay nodes.toList = .ok graph ∧ graph.nodes = nodes) ↔
      ∀ (position : Nat) (node : Node), nodes[position]? = some node →
        node.RefersBefore position ∧ placedAt position node = node := by
  have kept : ∀ graph : Graph, graph =
      ⟨#[] ++ (placedFrom 0 nodes.toList).toArray, false⟩ →
      (graph.nodes = nodes ↔ placedFrom 0 nodes.toList = nodes.toList) := by
    rintro graph rfl
    rw [Array.empty_append, ← Array.toList_inj]
  rw [← forall_mem_zipIdx]
  constructor
  · rintro ⟨graph, replayed, same⟩ entry member
    obtain ⟨refers, built⟩ := (replay_eq_ok_iff rfl).mp replayed
    exact ⟨refers entry member,
      placedFrom_eq_self_iff.mp ((kept graph built).mp same) entry member⟩
  · intro each
    refine ⟨_,
      (replay_eq_ok_iff rfl).mpr ⟨fun entry member => (each entry member).1, rfl⟩, ?_⟩
    exact (kept _ rfl).mpr (placedFrom_eq_self_iff.mpr fun entry member =>
      (each entry member).2)

theorem exists_ofNodes_iff {nodes : Array Node} :
    (∃ graph, ofNodes nodes = .ok graph) ↔
      ∀ (position : Nat) (node : Node), nodes[position]? = some node →
        node.FitsAt position := by
  have flawless_iff := @flaws_eq_nil_iff ⟨nodes, true⟩
  rw [← flawless_iff]
  constructor
  · rintro ⟨graph, built⟩
    obtain ⟨rfl, flawless⟩ := ofNodes_eq_ok_iff.mp built
    exact flawless
  · exact fun flawless => ⟨_, ofNodes_eq_ok_iff.mpr ⟨rfl, flawless⟩⟩

theorem exists_ofNodes_iff_replay {nodes : Array Node} :
    (∃ graph, ofNodes nodes = .ok graph) ↔
      (∃ graph, empty.replay nodes.toList = .ok graph ∧ graph.nodes = nodes) ∧
        ∀ node ∈ nodes, node.HasShape := by
  rw [exists_ofNodes_iff, replay_eq_self_iff]
  constructor
  · intro fits
    refine ⟨fun position node found => ?_, fun node member => ?_⟩
    · obtain ⟨refers, kept, -⟩ := Node.fitsAt_iff.mp (fits position node found)
      exact ⟨refers, kept⟩
    · obtain ⟨position, found⟩ := Array.getElem?_of_mem member
      exact (Node.fitsAt_iff.mp (fits position node found)).2.2
  · rintro ⟨kept, shaped⟩ position node found
    obtain ⟨refers, same⟩ := kept position node found
    exact Node.fitsAt_iff.mpr ⟨refers, same, shaped node (Array.mem_of_getElem? found)⟩

theorem exists_ofNodes_of_append {kept rest : Array Node}
    (accepted : ∃ graph, ofNodes (kept ++ rest) = .ok graph) :
    ∃ graph, ofNodes kept = .ok graph := by
  rw [exists_ofNodes_iff] at accepted ⊢
  intro position node found
  apply accepted position node
  rw [Array.getElem?_append_left (Array.getElem?_eq_some_iff.mp found).1]
  exact found

/-- A list of nodes is accepted exactly if recording it in a new graph never fails and
gives the very same nodes, each with the shape of its kind.  The graph is then frozen and
holds these nodes, and what comes first in the list is accepted by itself. -/
theorem validation_agrees_with_recording (nodes : Array Node) :
    ((∃ graph, ofNodes nodes = .ok graph) ↔
      (∃ graph, empty.replay nodes.toList = .ok graph ∧ graph.nodes = nodes) ∧
        ∀ node ∈ nodes, node.HasShape) ∧
    (∀ graph, ofNodes nodes = .ok graph → graph.frozen = true ∧ graph.nodes = nodes) ∧
    ∀ kept rest : Array Node, nodes = kept ++ rest →
      (∃ graph, ofNodes nodes = .ok graph) → ∃ graph, ofNodes kept = .ok graph := by
  refine ⟨exists_ofNodes_iff_replay, fun graph built => ?_, ?_⟩
  · obtain ⟨rfl, -⟩ := ofNodes_eq_ok_iff.mp built
    exact ⟨rfl, rfl⟩
  · rintro kept rest rfl
    exact exists_ofNodes_of_append

def overwritingTrace : Array Node :=
  #[⟨0, .input, 0, 0.0, "x", []⟩, ⟨1, .constant, 1, 2.0, "", []⟩,
    ⟨2, .assignment, 0, 0.0, "", [1]⟩, ⟨3, .call, 3, 0.0, "f", [0, 1, 0]⟩]

/-- The second list is recorded without complaint too, but not as it is: its last node
then writes its own slot. -/
theorem overwritingTrace_accepted :
    (∃ graph, ofNodes overwritingTrace = .ok graph ∧ graph.frozen = true ∧
      graph.nodes = overwritingTrace) ∧
    (∃ graph, ofNodes (overwritingTrace.extract 0 3) = .ok graph) ∧
    ¬∃ graph, ofNodes (overwritingTrace.push ⟨4, .nop, 0, 0.0, "", []⟩) = .ok graph := by
  obtain ⟨accepted_iff, holds, kept⟩ := validation_agrees_with_recording overwritingTrace
  have shaped : ∀ node ∈ overwritingTrace, node.HasShape := by
    intro node member
    rw [← Node.shapeDefects_eq_nil_iff]
    revert node
    decide
  obtain ⟨graph, built⟩ := accepted_iff.mpr ⟨⟨_, rfl, rfl⟩, shaped⟩
  refine ⟨⟨graph, built, holds graph built⟩, ?_, fun accepted => ?_⟩
  · exact kept _ (overwritingTrace.extract 3 4) rfl ⟨graph, built⟩
  · obtain ⟨⟨replayed, ran, same⟩, -⟩ :=
      (validation_agrees_with_recording _).1.mp accepted
    cases ran
    revert same
    decide

end Graph

end CostTape
