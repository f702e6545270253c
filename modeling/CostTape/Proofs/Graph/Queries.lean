import CostTape.Graph.Analysis
import CostTape.Graph.YamlForm
import CostTape.Proofs.Graph.Reception

/-! Queries of a graph find whatever its nodes name, however the graph has come
about. -/

namespace CostTape

namespace Graph

/-- What can be done to a graph; there is a type of YAML documents. -/
inductive Change (Document : Type) where
  | append (node : Node)
  | freeze
  | rebuild (nodes : Array Node)
  | readJson (source : String)
  | readYaml (document : Document)

variable {Document : Type}

/-- A change that fails leaves the graph as it was. -/
def change (yaml : NodeReader String Document) (graph : Graph) : Change Document → Graph
  | .append node => (graph.append node).toOption.getD graph
  | .freeze => graph.freeze
  | .rebuild nodes => (ofNodes nodes).toOption.getD graph
  | .readJson source => ((receiveJsonText source).run.run graph).2
  | .readYaml document => ((receive yaml document).run.run graph).2

theorem isEmpty_users (graph : Graph) (id : NodeId) :
    (graph.users id).isEmpty = !graph.nodes.toList.any fun node => node.dependsOn id := by
  rw [Bool.eq_iff_iff, List.isEmpty_iff, users, filter, List.filter_eq_nil_iff,
    Bool.not_eq_true', List.any_eq_false]

theorem ordered_empty : empty.Ordered := by
  intro position node found
  cases found

namespace Ordered

variable {graph : Graph}

theorem append {next : Graph} {node : Node} (ordered : graph.Ordered)
    (accepted : graph.append node = .ok next) : next.Ordered := by
  intro position other found
  rw [nodes_of_append accepted, Array.getElem?_push] at found
  split at found
  · rename_i last
    subst last
    cases found
    obtain ⟨-, backward, -, -⟩ := append_eq_ok_iff.mp accepted
    exact ⟨rfl, backward⟩
  · exact ordered position other found

theorem change (ordered : graph.Ordered) (yaml : NodeReader String Document)
    (change : Change Document) : (Graph.change yaml graph change).Ordered := by
  cases change with
  | append node =>
      simp only [Graph.change]
      cases accepted : graph.append node with
      | ok next => exact ordered.append accepted
      | error fault => exact ordered
  | freeze => exact ordered
  | rebuild nodes =>
      simp only [Graph.change]
      cases built : ofNodes nodes with
      | ok next => exact ordered_of_flawless (ofNodes_eq_ok_iff.mp built).2
      | error flaws => exact ordered
  | readJson source =>
      simp only [Graph.change]
      rcases run_receiveJsonText source graph with
        ⟨fault, ran⟩ | ⟨after, ran, -, flawless, -⟩ <;> rw [ran]
      · exact ordered
      · exact ordered_of_flawless flawless
  | readYaml document =>
      simp only [Graph.change]
      rcases run_receive yaml document graph with
        ⟨fault, ran⟩ | ⟨-, ran⟩ | ⟨nodes, -, flawless, ran⟩ <;> rw [ran]
      · exact ordered
      · exact ordered
      · exact ordered_of_flawless flawless

theorem changes (ordered : graph.Ordered) (yaml : NodeReader String Document)
    (changes : List (Change Document)) :
    (changes.foldl (Graph.change yaml) graph).Ordered := by
  induction changes generalizing graph with
  | nil => exact ordered
  | cons change changes induction => exact induction (ordered.change yaml change)

theorem exists_readSlots (ordered : graph.Ordered) :
    ∃ used, graph.readSlots = .ok used ∧
      (SlotTable.blank graph.size).Marked
        (fun id => graph.nodes.toList.any fun node => node.dependsOn id) used := by
  refine SlotTable.Marked.foldlM fun node member current same => ?_
  rw [SlotTable.size_blank] at same
  have inside (arg : NodeId) (reads : arg ∈ node.args) :
      arg.precedes current.size = true := by
    rw [same]
    exact ordered.arg_precedes member reads
  apply SlotTable.marked_args inside
  intro arg reads table sized
  have below := (NodeId.precedes_iff.mp (inside arg reads)).2
  rw [if_pos (by rw [sized]; exact below)]

theorem roots_eq_ok (ordered : graph.Ordered) :
    graph.roots = .ok (graph.filter fun node => (graph.users node.id).isEmpty) := by
  obtain ⟨used, ran, marked⟩ := ordered.exists_readSlots
  have selects (node : Node) (member : node ∈ graph.nodes.toList) :
      (do
        let isUsed ← used.read node.id
        pure (if isUsed then none else some node)) =
      (.ok (if (graph.users node.id).isEmpty then some node else none) :
        Except IndexFault (Option Node)) := by
    have inside := ordered.id_precedes member
    rw [SlotTable.read_eq_ok (by rw [marked.size_eq, SlotTable.size_blank]; exact inside),
      marked.flag_eq _ (by rw [SlotTable.size_blank]; exact inside), SlotTable.flag_blank,
      Bool.false_or]
    rw [isEmpty_users]
    cases graph.nodes.toList.any fun other => other.dependsOn node.id <;> rfl
  unfold roots
  rw [ran]
  refine (filterMapM_eq_ok selects).trans ?_
  rw [filter, ← List.filterMap_eq_filter]
  rfl

theorem node_eq_ok (ordered : graph.Ordered) {id : NodeId}
    (inside : id.precedes graph.size = true) :
    ∃ node ∈ graph.nodes, graph.node id = .ok node ∧ node.id = id := by
  obtain ⟨nonnegative, below⟩ := NodeId.precedes_iff.mp inside
  have within : id.toNat < graph.nodes.size := by
    have : graph.size = graph.nodes.size := rfl
    omega
  have found := Array.getElem?_eq_getElem within
  refine ⟨_, Array.getElem_mem within, ?_, ?_⟩
  · simp only [node, lookup?, if_pos nonnegative, found]
  · rw [(ordered _ _ found).1, Int.toNat_of_nonneg nonnegative]

theorem arguments_eq_ok (ordered : graph.Ordered) {node : Node}
    (member : node ∈ graph.nodes) :
    ∃ found, graph.arguments node = .ok found ∧ found.map Node.id = node.args := by
  have inside (arg : NodeId) (reads : arg ∈ node.args) : arg.precedes graph.size = true :=
    ordered.arg_precedes (Array.mem_toList_iff.mpr member) reads
  unfold arguments
  generalize node.args = args at inside
  induction args with
  | nil => exact ⟨[], rfl, rfl⟩
  | cons arg args induction =>
      obtain ⟨first, -, looked, own⟩ := ordered.node_eq_ok (inside arg List.mem_cons_self)
      obtain ⟨rest, ran, others⟩ :=
        induction fun other reads => inside other (List.mem_cons_of_mem _ reads)
      refine ⟨first :: rest, ?_, ?_⟩
      · rw [List.mapM_cons, looked, ran]
        rfl
      · rw [List.map_cons, own, others]

end Ordered

theorem mem_users_iff {graph : Graph} {id : NodeId} {node : Node} :
    node ∈ graph.users id ↔ node ∈ graph.nodes ∧ id ∈ node.args := by
  simp [users, filter, Node.dependsOn]

/-- The assessment of any list of nodes at all succeeds.  Whatever has been done to a
graph, with success or without, and whatever reads its YAML documents, its roots are the
nodes without users, the users of an id are the nodes that read it, and the operands of
its nodes are all found. -/
theorem queries_find_what_nodes_name :
    (∀ graph : Graph, ∃ assessment, graph.analyse = .ok assessment ∧
      assessment.flaws = graph.flaws) ∧
    ∀ {Document : Type} (yaml : NodeReader String Document)
    (changes : List (Change Document)),
      let graph := changes.foldl (change yaml) empty
      graph.roots = .ok (graph.filter fun node => (graph.users node.id).isEmpty) ∧
        (∀ (id : NodeId) (node : Node),
          node ∈ graph.users id ↔ node ∈ graph.nodes ∧ id ∈ node.args) ∧
        ∀ node ∈ graph.nodes, ∃ found,
          graph.arguments node = .ok found ∧ found.map Node.id = node.args := by
  refine ⟨exists_analyse, fun yaml changes => ?_⟩
  have ordered := ordered_empty.changes yaml changes
  exact ⟨ordered.roots_eq_ok, fun _ _ => mem_users_iff, fun _ => ordered.arguments_eq_ok⟩

/-- Two nodes are accepted.  A forward reference, a node that reads itself and a node for
a frozen graph are not. -/
def hostileChanges : List (Change String) :=
  [.append { Node.zero with kind := .input, symbol := "x" },
    .append { Node.zero with kind := .call, symbol := "f", args := [5] },
    .rebuild #[{ Node.zero with kind := .unary, symbol := "-", args := [0] }],
    .append { Node.zero with kind := .binary, symbol := "+", args := [0, 0] },
    .freeze, .append { Node.zero with kind := .nop }]

theorem queries_after_hostile_changes :
    let graph := hostileChanges.foldl (change (yamlNodes (.blocks 4))) empty
    let sum : Node := ⟨1, .binary, 1, 0.0, "+", [0, 0]⟩
    sum ∈ graph.nodes ∧ graph.roots = .ok [sum] ∧
      ∃ found, graph.arguments sum = .ok found ∧ found.map Node.id = [0, 0] := by
  intro graph sum
  have built : graph = ⟨#[⟨0, .input, 0, 0.0, "x", []⟩, sum], true⟩ := rfl
  have member : sum ∈ graph.nodes := by
    rw [built]
    simp
  obtain ⟨roots, -, arguments⟩ :=
    queries_find_what_nodes_name.2 (yamlNodes (.blocks 4)) hostileChanges
  exact ⟨member, roots.trans rfl, arguments sum member⟩

/-- Nodes that no graph would accept lead the search for roots astray. -/
example : (Graph.mk #[{ Node.zero with args := [-1] }] true).roots = .error ⟨-1, 1⟩ := rfl

end Graph

end CostTape
