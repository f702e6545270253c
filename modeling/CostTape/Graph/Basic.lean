import CostTape.Graph.Node

/-! Traces: append-only lists of nodes in which every node refers backwards. -/

namespace CostTape

/-- The nodes recorded so far.  A frozen graph accepts no more. -/
structure Graph (Symbol : Type := String) where
  nodes : Array (Node Symbol)
  frozen : Bool
deriving DecidableEq

namespace Graph

inductive Fault where
  | frozen (kind : Kind)
  | forwardArgument (node arg : NodeId)
  | forwardTarget (node target : NodeId)
  | outOfRange (id : NodeId) (size : Nat)
deriving DecidableEq

def Fault.message : Fault → String
  | .frozen kind => "append " ++ kind.name ++ " node: expr: graph is frozen"
  | .forwardArgument node arg =>
      "node " ++ node.text ++ " argument " ++ arg.text ++ ": expr: forward reference"
  | .forwardTarget node target =>
      "node " ++ node.text ++ " target " ++ target.text ++ ": expr: forward reference"
  | .outOfRange id size =>
      "lookup " ++ id.text ++ s!" in graph of size {size}: expr: node id out of range"

variable {Symbol : Type}

def empty : Graph Symbol :=
  ⟨#[], false⟩

def size (graph : Graph Symbol) : Nat :=
  graph.nodes.size

def freeze (graph : Graph) : Graph :=
  { graph with frozen := true }

/-- The node as it stands at a position: it takes the position as its id, and
only an assignment keeps a target other than its own slot. -/
def placedAt (position : Nat) (node : Node) : Node :=
  { node with
    id := position
    target := if node.kind = .assignment then node.target else position }

/-- Stores a node at the next position.  Its arguments, and the target of an
assignment, must name earlier nodes. -/
def append (graph : Graph) (node : Node) : Except Fault Graph :=
  if graph.frozen then
    .error (.frozen node.kind)
  else
    match node.args.find? fun arg => !arg.precedes graph.size with
    | some arg => .error (.forwardArgument graph.size arg)
    | none =>
        if node.kind = .assignment ∧ node.target.precedes graph.size = false then
          .error (.forwardTarget graph.size node.target)
        else
          .ok { graph with nodes := graph.nodes.push (placedAt graph.size node) }

def lookup? (graph : Graph) (id : NodeId) : Option Node :=
  if 0 ≤ id then graph.nodes[id.toNat]? else none

def node (graph : Graph) (id : NodeId) : Except Fault Node :=
  match graph.lookup? id with
  | some node => .ok node
  | none => .error (.outOfRange id graph.size)

def filter (graph : Graph) (keep : Node → Bool) : List Node :=
  graph.nodes.toList.filter keep

def constants (graph : Graph) : List Node :=
  graph.filter Node.isConstant

def arithmetic (graph : Graph) : List Node :=
  graph.filter Node.isArithmetic

def arguments (graph : Graph) (node : Node) : Except Fault (List Node) :=
  node.args.mapM graph.node

def users (graph : Graph) (id : NodeId) : List Node :=
  graph.filter fun node => node.dependsOn id

@[simp] theorem size_empty : (empty : Graph Symbol).size = 0 := rfl

@[simp] theorem frozen_freeze (graph : Graph) : graph.freeze.frozen = true := rfl

@[simp] theorem nodes_freeze (graph : Graph) : graph.freeze.nodes = graph.nodes := rfl

@[simp] theorem id_placedAt (position : Nat) (node : Node) :
    (placedAt position node).id = position := rfl

@[simp] theorem kind_placedAt (position : Nat) (node : Node) :
    (placedAt position node).kind = node.kind := rfl

@[simp] theorem args_placedAt (position : Nat) (node : Node) :
    (placedAt position node).args = node.args := rfl

theorem append_eq_ok_iff {graph next : Graph} {node : Node} :
    graph.append node = .ok next ↔
      graph.frozen = false ∧
      (∀ arg ∈ node.args, arg.precedes graph.size = true) ∧
      (node.kind = .assignment → node.target.precedes graph.size = true) ∧
      next = { graph with nodes := graph.nodes.push (placedAt graph.size node) } := by
  unfold append
  cases frozen : graph.frozen with
  | true => simp
  | false =>
      cases forward : node.args.find? fun arg => !arg.precedes graph.size with
      | some arg =>
          have refused := List.find?_some forward
          have member := List.mem_of_find?_eq_some forward
          constructor
          · intro accepted
            cases accepted
          · rintro ⟨-, backward, -, -⟩
            simp [backward arg member] at refused
      | none =>
          have backward : ∀ arg ∈ node.args, arg.precedes graph.size = true := by
            simpa using List.find?_eq_none.mp forward
          by_cases refused :
              node.kind = .assignment ∧ node.target.precedes graph.size = false
          · simp [refused]
          · have targeted :
                node.kind = .assignment → node.target.precedes graph.size = true := by
              simpa using refused
            simp only [Bool.false_eq_true, if_false, if_neg refused, Except.ok.injEq,
              true_and]
            exact ⟨fun same => ⟨backward, targeted, same.symm⟩,
              fun ⟨_, _, same⟩ => same.symm⟩

theorem nodes_of_append {graph next : Graph} {node : Node}
    (accepted : graph.append node = .ok next) :
    next.nodes = graph.nodes.push (placedAt graph.size node) := by
  obtain ⟨-, -, -, rfl⟩ := append_eq_ok_iff.mp accepted
  rfl

theorem size_of_append {graph next : Graph} {node : Node}
    (accepted : graph.append node = .ok next) : next.size = graph.size + 1 := by
  unfold size
  rw [nodes_of_append accepted, Array.size_push]

theorem frozen_of_append {graph next : Graph} {node : Node}
    (accepted : graph.append node = .ok next) : next.frozen = graph.frozen := by
  obtain ⟨-, -, -, rfl⟩ := append_eq_ok_iff.mp accepted
  rfl

end Graph

end CostTape
