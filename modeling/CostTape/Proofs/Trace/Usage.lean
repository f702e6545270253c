import CostTape.Proofs.Graph.Queries
import CostTape.Proofs.Trace.Unused

/-! Three ways to ask which slots are used: the nodes that read a slot, the operands of a
node, and the advice on results that nothing uses.  On a sound trace they agree. -/

namespace CostTape

namespace Graph

variable {graph : Graph}

/-- An assignment overwrites the slot. -/
def isOverwritten (graph : Graph) (slot : NodeId) : Bool :=
  graph.nodes.toList.any fun node => node.kind = .assignment && node.target == slot

theorem ids_ascend (flawless : graph.flaws = []) :
    graph.nodes.toList.Pairwise fun node later => node.id < later.id := by
  rw [List.pairwise_iff_getElem]
  intro place position inside within sooner
  rw [(fitsAt_of_flawless flawless (List.getElem?_eq_getElem inside)).id_eq,
    (fitsAt_of_flawless flawless (List.getElem?_eq_getElem within)).id_eq]
  exact Int.ofNat_lt.mpr sooner

theorem mem_operands_iff {node operand : Node} {operands : List Node}
    (resolved : graph.arguments node = .ok operands) :
    operand ∈ operands ↔ ∃ arg ∈ node.args, graph.node arg = .ok operand := by
  unfold arguments at resolved
  generalize node.args = args at resolved ⊢
  induction args generalizing operands with
  | nil =>
      cases resolved
      simp
  | cons arg args induction =>
      rw [List.mapM_cons] at resolved
      cases looked : graph.node arg with
      | error fault =>
          rw [looked] at resolved
          cases resolved
      | ok first =>
          cases ran : args.mapM graph.node with
          | error fault =>
              rw [looked, ran] at resolved
              cases resolved
          | ok rest =>
              rw [looked, ran] at resolved
              cases resolved
              rw [List.mem_cons, induction ran, List.exists_mem_cons_iff, looked,
                Except.ok.injEq, eq_comm]

theorem node_eq_ok_iff {id : NodeId} {node : Node} :
    graph.node id = .ok node ↔
      ∃ position : Nat, id = position ∧ graph.nodes.toList[position]? = some node := by
  unfold Graph.node lookup?
  constructor
  · intro looked
    split at looked
    · rename_i found stored
      cases looked
      split at stored
      · rename_i nonnegative
        exact ⟨id.toNat, (Int.toNat_of_nonneg nonnegative).symm, by simpa using stored⟩
      · cases stored
    · cases looked
  · rintro ⟨position, rfl, stored⟩
    have found : graph.nodes[(position : Int).toNat]? = some node := by simpa using stored
    rw [if_pos (Int.natCast_nonneg position), found]

theorem Ordered.id_of_node_eq_ok (ordered : graph.Ordered) {id : NodeId} {node : Node}
    (looked : graph.node id = .ok node) : node.id = id := by
  obtain ⟨position, rfl, stored⟩ := node_eq_ok_iff.mp looked
  exact (ordered position node (by simpa using stored)).1

/-- A node reads the slot of another exactly if it has it for an operand. -/
theorem Ordered.mem_users_iff_mem_operands (ordered : graph.Ordered) {node : Node}
    {operands : List Node} (member : node ∈ graph.nodes)
    (resolved : graph.arguments node = .ok operands) (id : NodeId) :
    node ∈ graph.users id ↔ ∃ operand ∈ operands, graph.node id = .ok operand := by
  rw [mem_users_iff, and_iff_right member]
  constructor
  · intro reads
    have inside := ordered.arg_precedes (Array.mem_toList_iff.mpr member) reads
    obtain ⟨operand, -, looked, -⟩ := ordered.node_eq_ok inside
    exact ⟨operand, (mem_operands_iff resolved).mpr ⟨id, reads, looked⟩, looked⟩
  · rintro ⟨operand, among, looked⟩
    obtain ⟨arg, reads, found⟩ := (mem_operands_iff resolved).mp among
    rw [← ordered.id_of_node_eq_ok looked, ordered.id_of_node_eq_ok found]
    exact reads

theorem any_uses (id : NodeId) :
    graph.nodes.toList.any (uses · id) =
      (!(graph.users id).isEmpty || graph.isOverwritten id) := by
  rw [isEmpty_users, Bool.not_not, isOverwritten, Bool.eq_iff_iff]
  simp only [uses, List.any_eq_true, Bool.or_eq_true, and_or_left, exists_or]

/-- The advice on the node at a position, if it repeats a computation. -/
def repetition? (graph : Graph) (position : Nat) (node : Node) : Option Advice :=
  if node.isTransfer || node.kind = .nop then none
  else (graph.reusable? position node).map fun earlier =>
    ⟨node.id, .replaceableBy earlier.id⟩

def repetitions (graph : Graph) : List Advice :=
  graph.nodes.toList.zipIdx.filterMap fun (node, position) =>
    graph.repetition? position node

def unusedResults (graph : Graph) : List Advice :=
  graph.nodes.toList.filterMap fun node =>
    if graph.nodes.toList.any (uses · node.id) || node.hasEffect ||
      node.kind = .nop then none
    else some ⟨node.id, .unused node.kind⟩

theorem advice_eq_append (flawless : graph.flaws = []) :
    graph.assess.advice = graph.repetitions ++ graph.unusedResults :=
  advice_of_flawless flawless

theorem repetition?_eq_some_iff {position : Nat} {node : Node} {advice : Advice} :
    graph.repetition? position node = some advice ↔
      node.isTransfer = false ∧ node.kind ≠ .nop ∧
        ∃ earlier, graph.reusable? position node = some earlier ∧
          advice = ⟨node.id, .replaceableBy earlier.id⟩ := by
  unfold repetition?
  split
  · rename_i passed
    rw [Bool.or_eq_true, decide_eq_true_iff] at passed
    constructor
    · intro selected
      cases selected
    · rintro ⟨inner, active, -⟩
      rcases passed with transfers | idles
      · rw [inner] at transfers
        cases transfers
      · exact absurd idles active
  · rename_i computes
    rw [Bool.or_eq_true, not_or, Bool.not_eq_true, decide_eq_true_iff] at computes
    rw [Option.map_eq_some_iff, and_iff_right computes.1, and_iff_right computes.2]
    simp only [eq_comm]

theorem isUnused_of_mem_repetitions {advice : Advice}
    (member : advice ∈ graph.repetitions) : advice.hint.isUnused = false := by
  obtain ⟨⟨node, position⟩, -, selected⟩ := List.mem_filterMap.mp member
  obtain ⟨-, -, earlier, -, rfl⟩ := repetition?_eq_some_iff.mp selected
  rfl

theorem isUnused_of_mem_unusedResults {advice : Advice}
    (member : advice ∈ graph.unusedResults) : advice.hint.isUnused = true := by
  obtain ⟨node, -, selected⟩ := List.mem_filterMap.mp member
  split at selected
  · cases selected
  · cases selected
    rfl

theorem filter_isUnused_advice (flawless : graph.flaws = []) :
    graph.assess.advice.filter (·.hint.isUnused) = graph.unusedResults := by
  have others : graph.repetitions.filter (·.hint.isUnused) = [] := by
    rw [List.filter_eq_nil_iff]
    intro advice member
    rw [isUnused_of_mem_repetitions member]
    exact Bool.false_ne_true
  rw [advice_eq_append flawless, List.filter_append, others, List.nil_append,
    List.filter_eq_self]
  intro advice member
  exact isUnused_of_mem_unusedResults member

/-- What advice declares unused, told by users and assignments instead of a table. -/
theorem unusedResults_eq (graph : Graph) :
    graph.unusedResults =
      ((graph.filter fun node => (graph.users node.id).isEmpty).filter fun node =>
        node.kind ≠ .nop && node.kind ≠ .output && node.kind ≠ .assignment &&
          !graph.isOverwritten node.id).map fun node => ⟨node.id, .unused node.kind⟩ := by
  rw [unusedResults, filter, List.filter_filter, ← List.filterMap_eq_map,
    List.filterMap_filter]
  apply List.filterMap_congr
  intro node _
  have opposite :
      (node.kind ≠ .nop && node.kind ≠ .output && node.kind ≠ .assignment &&
          !graph.isOverwritten node.id && (graph.users node.id).isEmpty) =
        !(!(graph.users node.id).isEmpty || graph.isOverwritten node.id ||
          node.hasEffect || node.kind = .nop) := by
    simp only [Node.hasEffect, decide_not, Bool.not_or, Bool.not_not]
    ac_rfl
  rw [any_uses, opposite]
  cases !(graph.users node.id).isEmpty || graph.isOverwritten node.id || node.hasEffect ||
    node.kind = .nop <;> rfl

/-- On a sound trace the roots are found, in the order of their ids and each once: they
are the nodes without users.  Users and operands are two sides of one relation.  Advice
declares unused, in the same order, exactly the roots without effect whose slots are not
overwritten. -/
theorem usage_analyses_agree (flawless : graph.flaws = []) :
    ∃ roots, graph.roots = .ok roots ∧
      roots.Pairwise (fun node later => node.id < later.id) ∧
      (∀ node, node ∈ roots ↔ node ∈ graph.nodes ∧ graph.users node.id = []) ∧
      (∀ node ∈ graph.nodes, ∃ operands, graph.arguments node = .ok operands ∧
        ∀ id, node ∈ graph.users id ↔ ∃ operand ∈ operands, graph.node id = .ok operand) ∧
      graph.assess.advice.filter (·.hint.isUnused) =
        (roots.filter fun node =>
          node.kind ≠ .nop && node.kind ≠ .output && node.kind ≠ .assignment &&
            !graph.isOverwritten node.id).map fun node =>
              ⟨node.id, .unused node.kind⟩ := by
  have ordered := ordered_of_flawless flawless
  refine ⟨_, ordered.roots_eq_ok, (ids_ascend flawless).filter _, ?_, ?_, ?_⟩
  · intro node
    simp [filter]
  · intro node member
    obtain ⟨operands, resolved, -⟩ := ordered.arguments_eq_ok member
    exact ⟨operands, resolved, ordered.mem_users_iff_mem_operands member resolved⟩
  · rw [filter_isUnused_advice flawless, unusedResults_eq]

/-- An operand read twice, a result that is overwritten before anything reads it, an input
and a sum that are never read, and an idle node. -/
def sparseTrace : Graph :=
  ⟨#[⟨0, .input, 0, 0.0, "x", []⟩, ⟨1, .input, 1, 0.0, "y", []⟩,
    ⟨2, .binary, 2, 0.0, "*", [0, 0]⟩, ⟨3, .constant, 3, 1.0, "", []⟩,
    ⟨4, .assignment, 3, 0.0, "", [2]⟩, ⟨5, .binary, 5, 0.0, "+", [2, 0]⟩,
    ⟨6, .nop, 6, 0.0, "", []⟩, ⟨7, .output, 7, 0.0, "z", [2]⟩], true⟩

theorem sparseTrace_usage :
    sparseTrace.flaws = [] ∧
    ∃ roots, sparseTrace.roots = .ok roots ∧ roots.map Node.id = [1, 3, 4, 5, 6, 7] ∧
      sparseTrace.assess.advice.filter (·.hint.isUnused) =
        [⟨1, .unused .input⟩, ⟨5, .unused .binary⟩] := by
  have flawless : sparseTrace.flaws = [] := by decide
  obtain ⟨roots, found, -, -, -, unused⟩ := usage_analyses_agree flawless
  have computed : sparseTrace.roots =
      .ok (sparseTrace.nodes.toList.filter fun node => node.id ≠ 0 && node.id ≠ 2) := rfl
  obtain rfl := Except.ok.inj (found.symm.trans computed)
  exact ⟨flawless, _, found, rfl, unused.trans rfl⟩

end Graph

end CostTape
