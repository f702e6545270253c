import CostTape.Graph.Basic

/-! Structural flaws of a node list. -/

namespace CostTape

inductive Severity where
  | error
  | warning
  | unlisted (code : Int) (outside : code < 0 ∨ 2 ≤ code)
deriving DecidableEq

namespace Severity

def ofCode (code : Int) : Severity :=
  if outside : code < 0 ∨ 2 ≤ code then unlisted code outside
  else if code = 0 then error
  else warning

def name : Severity → String
  | error => "error"
  | warning => "warning"
  | unlisted code _ => s!"ValidationSeverity({code})"

end Severity

/-- A remark on one node, or on the whole trace if the id names none. -/
structure Finding where
  node : NodeId
  message : String
  severity : Severity
deriving DecidableEq

def Finding.text (finding : Finding) : String :=
  let severity := finding.severity.name
  if finding.node.isValid then
    s!"[{severity}] node " ++ finding.node.text ++ ": " ++ finding.message
  else
    s!"[{severity}] " ++ finding.message

inductive Defect where
  | misplaced (position : Nat) (id : NodeId)
  | forwardArgument (arg : NodeId)
  | forwardTarget (target : NodeId)
  | foreignTarget (kind : Kind) (target : NodeId)
  | unknownKind (kind : Kind)
  | wrongArity (kind : Kind) (want has : Nat)
  | noSymbol (kind : Kind)
deriving DecidableEq

def Defect.message : Defect → String
  | .misplaced position id =>
      s!"stored at position {position} but has id " ++ id.text
  | .forwardArgument arg => "argument " ++ arg.text ++ " is not an earlier node"
  | .forwardTarget target =>
      "assignment target " ++ target.text ++ " is not an earlier slot"
  | .foreignTarget kind target =>
      kind.name ++ " node writes slot " ++ target.text ++ " instead of its own"
  | .unknownKind kind => "unknown kind " ++ kind.name
  | .wrongArity kind want has => kind.name ++ s!" takes {want} arguments, has {has}"
  | .noSymbol kind => kind.name ++ " node has no symbol"

structure Flaw where
  position : Nat
  defect : Defect
deriving DecidableEq

def Flaw.finding (flaw : Flaw) : Finding :=
  ⟨flaw.position, flaw.defect.message, .error⟩

variable {Symbol : Type}

namespace Node

def placementDefects (position : Nat) (node : Node Symbol) : List Defect :=
  if node.id = position then [] else [.misplaced position node.id]

/-- Arguments name earlier nodes; an assignment targets an earlier slot and
every other node its own. -/
def referenceDefects (position : Nat) (node : Node Symbol) : List Defect :=
  (node.args.filter fun arg => !arg.precedes position).map .forwardArgument ++
    if node.kind = .assignment then
      if node.target.precedes position then [] else [.forwardTarget node.target]
    else
      if node.target = position then [] else [.foreignTarget node.kind node.target]

def shapeDefects [DecidableEq Symbol] [SymbolType Symbol] (node : Node Symbol) :
    List Defect :=
  if node.kind.isListed then
    (match node.kind.arity? with
      | some want =>
          if node.args.length = want then []
          else [.wrongArity node.kind want node.args.length]
      | none => []) ++
    if node.kind.needsSymbol && node.symbol == SymbolType.ofText "" then
      [.noSymbol node.kind]
    else
      []
  else
    [.unknownKind node.kind]

end Node

namespace Graph

def flawsBy (graph : Graph Symbol) (rule : Nat → Node Symbol → List Defect) : List Flaw :=
  graph.nodes.toList.zipIdx.flatMap fun (node, position) =>
    (rule position node).map (Flaw.mk position)

variable [DecidableEq Symbol] [SymbolType Symbol]

/-- Every structural flaw: first of placement, then of reference, then of
shape. -/
def flaws (graph : Graph Symbol) : List Flaw :=
  graph.flawsBy Node.placementDefects ++
    graph.flawsBy Node.referenceDefects ++
    graph.flawsBy fun _ node => node.shapeDefects

def ofNodes (nodes : Array (Node Symbol)) : Except (List Flaw) (Graph Symbol) :=
  match (Graph.mk nodes true).flaws with
  | [] => .ok ⟨nodes, true⟩
  | flaws => .error flaws

def flawsMessage (flaws : List Flaw) : String :=
  "invalid graph: " ++ "\n".intercalate (flaws.map fun flaw => flaw.finding.text)

theorem ofNodes_eq_ok_iff {nodes : Array (Node Symbol)} {graph : Graph Symbol} :
    ofNodes nodes = .ok graph ↔ graph = ⟨nodes, true⟩ ∧ graph.flaws = [] := by
  unfold ofNodes
  split
  · rename_i none
    constructor
    · intro accepted
      cases accepted
      exact ⟨rfl, none⟩
    · rintro ⟨rfl, -⟩
      rfl
  · rename_i some
    constructor
    · intro accepted
      cases accepted
    · rintro ⟨rfl, none⟩
      exact absurd none some

end Graph

end CostTape
