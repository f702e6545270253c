import CostTape.Proofs.Graph.Advice
import CostTape.Proofs.Trace.Outputs

/-! Results that are never used.  All nodes that advice declares unused can be made idle
at once: no other slot holds anything else for it, and the same is written out. -/

namespace CostTape

universe u

def Hint.isUnused : Hint → Bool
  | .unused _ => true
  | .replaceableBy _ => false

namespace Graph

variable {graph : Graph}

/-- Advice declares the result of the node with that id unused. -/
def isUnused (graph : Graph) (id : NodeId) : Bool :=
  graph.assess.advice.any fun advice => advice.node == id && advice.hint.isUnused

/-- The idle node, if advice declares the node's result unused. -/
def idleIfUnused (graph : Graph) (node : Node) : Node :=
  if graph.isUnused node.id then .idle node.id else node

def withoutUnused (graph : Graph) : Graph :=
  { graph with nodes := graph.nodes.map graph.idleIfUnused }

theorem exists_of_isUnused (flawless : graph.flaws = []) {id : NodeId}
    (unused : graph.isUnused id = true) :
    ∃ node ∈ graph.nodes.toList, node.id = id ∧ node.hasEffect = false ∧
      ∀ other ∈ graph.nodes.toList, uses other id = false := by
  unfold isUnused at unused
  rw [advice_of_flawless flawless, List.any_append, Bool.or_eq_true, List.any_eq_true,
    List.any_eq_true] at unused
  rcases unused with ⟨advice, member, reported⟩ | ⟨advice, member, reported⟩
  · obtain ⟨⟨node, position⟩, -, selected⟩ := List.mem_filterMap.mp member
    simp only at selected
    split at selected
    · cases selected
    · obtain ⟨earlier, -, rfl⟩ := Option.map_eq_some_iff.mp selected
      simp [Hint.isUnused] at reported
  · obtain ⟨node, stored, selected⟩ := List.mem_filterMap.mp member
    split at selected
    · cases selected
    · rename_i spare
      cases selected
      simp only [Bool.or_eq_true, decide_eq_true_eq, not_or, Bool.not_eq_true,
        List.any_eq_false] at spare
      simp only [Bool.and_eq_true, beq_iff_eq] at reported
      obtain ⟨rfl, -⟩ := reported
      exact ⟨node, stored, rfl, spare.1.2, spare.1.1⟩

theorem isUnused_eq_false_of_uses (flawless : graph.flaws = []) {node : Node}
    {id : NodeId} (member : node ∈ graph.nodes.toList) (used : uses node id = true) :
    graph.isUnused id = false := by
  rw [Bool.eq_false_iff]
  intro unused
  obtain ⟨-, -, -, -, unread⟩ := exists_of_isUnused flawless unused
  rw [unread node member] at used
  cases used

theorem eq_of_id_eq (flawless : graph.flaws = []) {node other : Node}
    (member : node ∈ graph.nodes.toList) (otherMember : other ∈ graph.nodes.toList)
    (same : node.id = other.id) : node = other := by
  obtain ⟨position, found⟩ := List.mem_iff_getElem?.mp member
  obtain ⟨place, otherFound⟩ := List.mem_iff_getElem?.mp otherMember
  rw [(fitsAt_of_flawless flawless found).id_eq,
    (fitsAt_of_flawless flawless otherFound).id_eq, Int.natCast_inj] at same
  rw [same, otherFound] at found
  exact (Option.some.inj found).symm

theorem hasEffect_eq_false_of_isUnused (flawless : graph.flaws = []) {node : Node}
    (member : node ∈ graph.nodes.toList) (unused : graph.isUnused node.id = true) :
    node.hasEffect = false := by
  obtain ⟨other, stored, same, pure, -⟩ := exists_of_isUnused flawless unused
  rw [← eq_of_id_eq flawless stored member same]
  exact pure

theorem flaws_withoutUnused (flawless : graph.flaws = []) :
    graph.withoutUnused.flaws = [] := by
  apply flaws_map_eq_nil flawless
  intro position node fits
  unfold idleIfUnused
  split
  · rw [fits.id_eq]
    exact Node.fitsAt_idle position
  · exact fits

/-- The stores agree on all slots but the unused ones. -/
def AgreeOnUsed {V : Type u} (graph : Graph) (store other : NodeId → V) : Prop :=
  ∀ slot : NodeId, graph.isUnused slot = false → other slot = store slot

namespace AgreeOnUsed

variable {V : Type u} {store other : NodeId → V} {node : Node}

theorem read (agree : graph.AgreeOnUsed store other) (flawless : graph.flaws = [])
    (member : node ∈ graph.nodes.toList) :
    node.args.map other = node.args.map store := by
  apply List.map_congr_left
  intro arg reads
  apply agree
  apply isUnused_eq_false_of_uses flawless member
  simp [uses, Node.dependsOn, reads]

theorem emitted_eq (agree : graph.AgreeOnUsed store other) (flawless : graph.flaws = [])
    (member : node ∈ graph.nodes.toList) :
    (graph.idleIfUnused node).emitted other = node.emitted store := by
  unfold idleIfUnused
  split
  · rename_i unused
    have pure := hasEffect_eq_false_of_isUnused flawless member unused
    have silent : node.kind ≠ .output := by
      intro outputs
      simp [Node.hasEffect, outputs] at pure
    have idle : (Node.idle node.id).kind ≠ .output := by simp [Node.idle]
    rw [Node.emitted, if_neg idle, Node.emitted, if_neg silent]
  · exact Node.emitted_congr rfl rfl (agree.read flawless member)

theorem step (meaning : Interpretation V) (agree : graph.AgreeOnUsed store other)
    (flawless : graph.flaws = []) (member : node ∈ graph.nodes.toList) :
    graph.AgreeOnUsed (meaning.step store node)
      (meaning.step other (graph.idleIfUnused node)) := by
  obtain ⟨position, found⟩ := List.mem_iff_getElem?.mp member
  have fits := fitsAt_of_flawless flawless found
  intro slot used
  unfold idleIfUnused
  split
  · rename_i unused
    have pure := hasEffect_eq_false_of_isUnused flawless member unused
    have own : node.target = node.id := by
      rw [fits.id_eq]
      apply fits.target_eq
      intro assigns
      simp [Node.hasEffect, assigns] at pure
    have apart : slot ≠ node.id := by
      rintro rfl
      rw [used] at unused
      cases unused
    rw [meaning.step_of_ne _ _ apart, meaning.step_of_ne _ _ (by rw [own]; exact apart)]
    exact agree slot used
  · have computed : meaning.result other node = meaning.result store node :=
      meaning.result_congr rfl rfl rfl (agree.read flawless member)
        (Node.args_ne_nil_of_shaped fits.shaped)
    by_cases here : slot = node.target
    · rw [here, meaning.step_target, meaning.step_target, computed]
    · rw [meaning.step_of_ne _ _ here, meaning.step_of_ne _ _ here]
      exact agree slot used

theorem resume (meaning : Interpretation V) (agree : graph.AgreeOnUsed store other)
    (flawless : graph.flaws = []) {nodes : List Node}
    (members : ∀ node ∈ nodes, node ∈ graph.nodes.toList) :
    meaning.outputsFrom other (nodes.map graph.idleIfUnused) =
        meaning.outputsFrom store nodes ∧
      graph.AgreeOnUsed (meaning.resume store nodes)
        (meaning.resume other (nodes.map graph.idleIfUnused)) := by
  induction nodes generalizing store other with
  | nil => exact ⟨rfl, agree⟩
  | cons node nodes induction =>
      rw [List.forall_mem_cons] at members
      obtain ⟨outputs, contents⟩ := induction (agree.step meaning flawless members.1)
        members.2
      refine ⟨?_, contents⟩
      rw [List.map_cons, Interpretation.outputsFrom, Interpretation.outputsFrom, outputs,
        agree.emitted_eq flawless members.1]

end AgreeOnUsed

/-- All nodes whose results advice declares unused can be made idle at once.  The trace
stays sound, performs the same writes to external variables, and leaves the same in every
slot that is not declared unused. -/
theorem unused_results_can_be_dropped (flawless : graph.flaws = []) :
    graph.withoutUnused.flaws = [] ∧
      ∀ (V : Type u) (meaning : Interpretation V),
        meaning.outputs graph.withoutUnused = meaning.outputs graph ∧
          ∀ slot : NodeId, graph.isUnused slot = false →
            meaning.contents graph.withoutUnused slot = meaning.contents graph slot := by
  refine ⟨flaws_withoutUnused flawless, ?_⟩
  intro V meaning
  have start : graph.AgreeOnUsed meaning.blank meaning.blank := fun _ _ => rfl
  obtain ⟨outputs, contents⟩ := start.resume meaning flawless fun _ member => member
  rw [← Array.toList_map] at outputs contents
  exact ⟨outputs, contents⟩

/-- An unread sum whose operand is used otherwise, an unread input and an unread
constant. -/
def wastefulTrace : Graph :=
  ⟨#[⟨0, .input, 0, 0.0, "x", []⟩, ⟨1, .input, 1, 0.0, "y", []⟩,
    ⟨2, .constant, 2, 3.0, "", []⟩, ⟨3, .constant, 3, 4.0, "", []⟩,
    ⟨4, .binary, 4, 0.0, "+", [0, 3]⟩, ⟨5, .assignment, 3, 0.0, "", [0]⟩,
    ⟨6, .output, 6, 0.0, "r", [3]⟩], true⟩

theorem wastefulTrace_without_unused :
    wastefulTrace.flaws = [] ∧
    wastefulTrace.withoutUnused.nodes.toList.map Node.kind =
      [.input, .nop, .nop, .constant, .nop, .assignment, .output] ∧
    wastefulTrace.withoutUnused.flaws = [] ∧
    ∀ (V : Type) (meaning : Interpretation V),
      meaning.outputs wastefulTrace.withoutUnused = meaning.outputs wastefulTrace ∧
        meaning.contents wastefulTrace.withoutUnused 3 =
          meaning.contents wastefulTrace 3 := by
  have flawless : wastefulTrace.flaws = [] := by decide
  obtain ⟨sound, preserved⟩ := unused_results_can_be_dropped flawless
  refine ⟨flawless, by decide +kernel, sound, ?_⟩
  intro V meaning
  obtain ⟨outputs, contents⟩ := preserved V meaning
  exact ⟨outputs, contents 3 (by decide +kernel)⟩

end Graph

end CostTape
