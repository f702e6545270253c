import CostTape.Proofs.Trace.Execution

/-! Stretches of a trace: what they leave alone, and what they write to external
variables. -/

namespace CostTape

universe u

/-- What a node writes to an external variable. -/
def Node.emitted {V : Type u} (node : Node) (store : NodeId → V) : List (String × V) :=
  if node.kind = .output then node.args.map fun arg => (node.symbol, store arg) else []

theorem Node.emitted_congr {V : Type u} {store other : NodeId → V} {node copy : Node}
    (kind_eq : copy.kind = node.kind) (symbol_eq : copy.symbol = node.symbol)
    (read : copy.args.map other = node.args.map store) :
    copy.emitted other = node.emitted store := by
  have paired (memory : NodeId → V) (name : String) (args : List NodeId) :
      args.map (fun arg => (name, memory arg)) =
        (args.map memory).map (Prod.mk name) := by
    rw [List.map_map]
    rfl
  simp only [emitted, kind_eq, symbol_eq, paired, read]

namespace Interpretation

variable {V : Type u} (meaning : Interpretation V)

/-- What the slots hold after a further stretch of the trace. -/
def resume (store : NodeId → V) (nodes : List Node) : NodeId → V :=
  nodes.foldl meaning.step store

def outputsFrom (store : NodeId → V) : List Node → List (String × V)
  | [] => []
  | node :: nodes =>
      node.emitted store ++ outputsFrom (meaning.step store node) nodes

/-- What the trace writes to external variables, in the order of the writes. -/
def outputs (graph : Graph) : List (String × V) :=
  meaning.outputsFrom meaning.blank graph.nodes.toList

@[simp] theorem resume_cons (store : NodeId → V) (node : Node) (nodes : List Node) :
    meaning.resume store (node :: nodes) =
      meaning.resume (meaning.step store node) nodes := rfl

theorem execute_append (first second : List Node) :
    meaning.execute (first ++ second) = meaning.resume (meaning.execute first) second :=
  List.foldl_append ..

theorem outputsFrom_append (store : NodeId → V) (first second : List Node) :
    meaning.outputsFrom store (first ++ second) =
      meaning.outputsFrom store first ++
        meaning.outputsFrom (meaning.resume store first) second := by
  induction first generalizing store with
  | nil => rfl
  | cons node nodes induction =>
      simp only [List.cons_append, outputsFrom, induction, resume_cons, List.append_assoc]

/-- A slot that is no node's target keeps its contents. -/
theorem resume_of_untouched {nodes : List Node} {slot : NodeId}
    (untouched : ∀ node ∈ nodes, slot ≠ node.target) (store : NodeId → V) :
    meaning.resume store nodes slot = store slot := by
  induction nodes generalizing store with
  | nil => rfl
  | cons node nodes induction =>
      rw [List.forall_mem_cons] at untouched
      rw [resume_cons, induction untouched.2, meaning.step_of_ne store node untouched.1]

/-- What a node computes depends on no more than the contents of its operands. -/
theorem result_congr {store other : NodeId → V} {node copy : Node}
    (kind_eq : copy.kind = node.kind) (value_eq : copy.value = node.value)
    (symbol_eq : copy.symbol = node.symbol)
    (read : copy.args.map other = node.args.map store)
    (supplied : node.kind = .assignment → node.args ≠ []) :
    meaning.result other copy = meaning.result store node := by
  unfold result
  rw [kind_eq]
  cases kind : node.kind with
  | constant => exact congrArg meaning.literal value_eq
  | input => exact congrArg meaning.input symbol_eq
  | assignment =>
      obtain ⟨arg, rest, args⟩ := List.exists_cons_of_ne_nil (supplied kind)
      simp only [← List.head?_map, read, args]
      rfl
  | _ => simp only [symbol_eq, read]

end Interpretation

end CostTape
