import CostTape.Graph.Basic
import CostTape.Recording.Handle

/-! Recording sessions, and steps that record into one. -/

namespace CostTape

/-- One recording pass.  It accepts operations until it is stopped. -/
structure Session where
  label : String
  graph : Graph
  isStopped : Bool
deriving DecidableEq

namespace Session

def fresh (label : String) : Session :=
  ⟨label, .empty, false⟩

/-- Stands for a session that was never started. -/
def absent : Session :=
  ⟨"", Graph.empty.freeze, true⟩

def isRecording (session : Session) : Bool :=
  !session.isStopped

def stop (session : Session) : Session :=
  { session with graph := session.graph.freeze, isStopped := true }

end Session

inductive RecordingFault where
  | graph (fault : Graph.Fault)
  | notRecording (operation : String)
  | unsetHandle
  | sessionActive (label : String)
  /-- The seed of a dual number names none of its partials. -/
  | seedOutside (seed dims : Int)
  | unequalDims (operation : String) (left right : Nat)
  /-- No list of partials has that length. -/
  | dimsOutOfRange
  | noSuchPartial
deriving DecidableEq

def RecordingFault.message : RecordingFault → String
  | .graph fault => fault.message
  | .notRecording operation => operation ++ ": recorder: not recording"
  | .unsetHandle => "operand: recorder: unset expression handle"
  | .sessionActive label =>
      "start session: recorder: recording session already active (session " ++
        label ++ ")"
  | .seedOutside seed dims => s!"jet: seed index {seed} outside [0, {dims})"
  | .unequalDims operation left right =>
      "jet: " ++ operation ++ s!" of jets with {left} and {right} partials"
  | .dimsOutOfRange => "runtime error: makeslice: len out of range"
  | .noSuchPartial => "runtime error: index out of range"

/-- A step that records into a session.  A step that fails keeps what it had
recorded before. -/
abbrev Recording := ExceptT RecordingFault (StateM Session)

namespace Recording

def runOn (step : Recording α) (session : Session) :
    Except RecordingFault α × Session :=
  step.run session

def demandRecording (operation : String) : Recording Unit := do
  if (← get).isRecording then
    pure ()
  else
    throw (.notRecording operation)

def record (node : Node) : Recording NodeId := do
  demandRecording node.kind.name
  let session ← get
  match session.graph.append node with
  | .ok graph =>
      set { session with graph }
      pure session.graph.size
  | .error fault => throw (.graph fault)

def size : Recording Nat := do
  demandRecording "size"
  return (← get).graph.size

def nodeOf (handle : Handle) : Recording Node := do
  demandRecording "node"
  match (← get).graph.node handle.id with
  | .ok node => pure node
  | .error fault => throw (.graph fault)

def constant (value : Float) : Recording Handle :=
  Handle.bound <$> record { Node.zero with kind := .constant, value }

/-- The node for an operand.  A literal is recorded as a constant each time it
is used. -/
def operand : Handle → Recording NodeId
  | .bound id => pure id
  | .literal value => Handle.id <$> constant value
  | .unset => throw .unsetHandle

/-- Records an operation after its operands, from left to right. -/
def apply (kind : Kind) (symbol : String) (operands : List Handle) :
    Recording Handle := do
  let args ← operands.mapM operand
  Handle.bound <$> record { Node.zero with kind, symbol, args }

def parameter (name : String) : Recording Handle :=
  apply .input name []

def output (name : String) (value : Handle) : Recording Handle :=
  apply .output name [value]

def call (name : String) (operands : List Handle) : Recording Handle :=
  apply .call name operands

def ternary (condition first second : Handle) : Recording Handle :=
  call "ternary" [condition, first, second]

def nop : Recording Handle :=
  apply .nop "" []

def materialize (handle : Handle) : Recording Handle :=
  Handle.bound <$> operand handle

/-- Stores a source into the variable that a handle stands for, and returns the
variable's handle.  A handle that names a node keeps it, and its slot is
overwritten; any other takes the source's node. -/
def assign (destination source : Handle) : Recording Handle := do
  let arg ← operand source
  match destination with
  | .bound target =>
      let _ ← record { Node.zero with kind := .assignment, target, args := [arg] }
      pure destination
  | _ => pure (.bound arg)

end Recording

end CostTape
