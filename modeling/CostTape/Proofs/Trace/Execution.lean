import Mathlib.Logic.Function.Basic
import CostTape.Graph.Basic

/-! What a trace computes: its nodes are executed in turn on a store of slots. -/

namespace CostTape

universe u

/-- What a trace leaves open: the contents of the slots before it runs, and the
values of literals, external variables, operators and named functions. -/
structure Interpretation (V : Type u) where
  blank : NodeId → V
  literal : Float → V
  input : String → V
  operation : Kind → String → List V → V

def Kind.isOperation : Kind → Bool
  | .constant | .input | .assignment => false
  | _ => true

namespace Interpretation

variable {V : Type u} (meaning : Interpretation V)

/-- What a node writes when it finds the slots with these contents. -/
def result (store : NodeId → V) (node : Node) : V :=
  match node.kind with
  | .constant => meaning.literal node.value
  | .input => meaning.input node.symbol
  | .assignment => (node.args.head?.map store).getD (store node.target)
  | kind => meaning.operation kind node.symbol (node.args.map store)

def step (store : NodeId → V) (node : Node) : NodeId → V :=
  Function.update store node.target (meaning.result store node)

def execute (nodes : List Node) : NodeId → V :=
  nodes.foldl meaning.step meaning.blank

/-- What the slots hold once the whole trace has been executed. -/
def contents (graph : Graph) : NodeId → V :=
  meaning.execute graph.nodes.toList

theorem result_of_isOperation (store : NodeId → V) {node : Node}
    (computes : node.kind.isOperation = true) :
    meaning.result store node =
      meaning.operation node.kind node.symbol (node.args.map store) := by
  unfold result
  cases kind : node.kind <;> rw [kind] at computes <;> first | rfl | cases computes

theorem result_placedAt (store : NodeId → V) (position : Nat) {node : Node}
    (own : node.kind ≠ .assignment) :
    meaning.result store (Graph.placedAt position node) = meaning.result store node := by
  unfold result
  rw [Graph.kind_placedAt]
  cases kind : node.kind with
  | assignment => exact (own kind).elim
  | _ => rfl

theorem step_target (store : NodeId → V) (node : Node) :
    meaning.step store node node.target = meaning.result store node :=
  Function.update_self ..

theorem step_of_ne (store : NodeId → V) (node : Node) {slot : NodeId}
    (untouched : slot ≠ node.target) : meaning.step store node slot = store slot :=
  Function.update_of_ne untouched ..

theorem execute_concat (nodes : List Node) (node : Node) :
    meaning.execute (nodes ++ [node]) = meaning.step (meaning.execute nodes) node := by
  unfold execute
  rw [List.foldl_append]
  rfl

theorem contents_of_append {graph next : Graph} {node : Node}
    (accepted : graph.append node = .ok next) :
    meaning.contents next =
      meaning.step (meaning.contents graph) (Graph.placedAt graph.size node) := by
  unfold contents
  rw [Graph.nodes_of_append accepted, Array.toList_push, execute_concat]

end Interpretation

end CostTape
