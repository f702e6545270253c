import CostTape.Dual.Operator
import CostTape.Names
import CostTape.Recording.Studio

/-! Recording by hand: named sessions, handles and dual numbers, and the
requests that work on them. -/

namespace CostTape

structure Workbench where
  studio : Studio
  sessions : Names Nat
  handles : Names Handle
  duals : Names Dual

namespace Workbench

inductive Operand where
  | named (name : String)
  | literal (value : Float)

inductive ScalarRequest where
  | constant (value : Float)
  | parameter (name : String)
  | output (name : String) (value : Operand)
  | nop
  | materialize (value : Operand)
  | unary (operator : UnaryOperator) (value : Operand)
  | binary (operator : BinaryOperator) (left right : Operand)
  | call (name : String) (operands : List Operand)
  | ternary (condition first second : Operand)
  | copy (value : Operand)
  | primal (dual : String)
  | partialAt (dual : String) (slot : Int)

inductive DualRequest where
  | seeded (value : Float) (slot dims : Int)
  | constant (value : Float) (dims : Int)
  | ofHandle (primal : Operand) (dims : Int)
  | literal (primal : Operand) (partials : List Operand)
  | unary (operation : Dual.UnaryOperation) (dual : String)
  | binary (operation : Dual.BinaryOperation) (left right : String)
  | scale (dual : String) (factor : Operand)
  | addScalar (dual : String) (scalar : Operand)
  | copy (dual : String)

inductive Request where
  | start (label : String)
  | stop
  | stopActive
  | active
  | isRecording
  | size
  | node (handle : Operand)
  | inspect (handle : Operand)
  | scalar (request : ScalarRequest)
  | assign (destination : String) (source : Operand)
  | dual (request : DualRequest)
  | assignDual (destination source : String)

inductive Answer where
  | done
  | graph (graph : Graph)
  | active (any this : Bool)
  | isRecording (flag : Bool)
  | count (size : Nat)
  | node (node : Node)
  | handle (handle : Handle)
  | inspected (handle : Handle)
  | dual (dual : Dual)

def empty : Workbench :=
  ⟨.empty, [], [], []⟩

def handle (bench : Workbench) : Operand → Handle
  | .named name => (bench.handles.find? name).getD .unset
  | .literal value => .literal value

def dual (bench : Workbench) (name : String) : Dual :=
  (bench.duals.find? name).getD .zero

def session? (bench : Workbench) (name : String) : Option Session :=
  (bench.sessions.find? name).bind (bench.studio.sessions[·]?)

def scalarStep (bench : Workbench) : ScalarRequest → Recording Handle
  | .constant value => Recording.constant value
  | .parameter name => Recording.parameter name
  | .output name value => Recording.output name (bench.handle value)
  | .nop => Recording.nop
  | .materialize value => Recording.materialize (bench.handle value)
  | .unary operator value => Recording.unary operator (bench.handle value)
  | .binary operator left right =>
      Recording.binary operator (bench.handle left) (bench.handle right)
  | .call name operands => Recording.call name (operands.map bench.handle)
  | .ternary condition first second =>
      Recording.ternary (bench.handle condition) (bench.handle first)
        (bench.handle second)
  | .copy value => pure (bench.handle value)
  | .primal name => pure (bench.dual name).primal
  | .partialAt name slot => liftExcept ((bench.dual name).partialAt slot)
where
  liftExcept : Except RecordingFault Handle → Recording Handle
    | .ok handle => pure handle
    | .error fault => throw fault

def dualStep (bench : Workbench) : DualRequest → Recording Dual
  | .seeded value slot dims => Dual.seeded value slot dims
  | .constant value dims => Dual.constant value dims
  | .ofHandle primal dims => Dual.ofHandle (bench.handle primal) dims
  | .literal primal partials =>
      pure ⟨bench.handle primal,
        if partials.isEmpty then none else some (partials.map bench.handle)⟩
  | .unary operation name => operation.apply (bench.dual name)
  | .binary operation left right => operation.apply (bench.dual left) (bench.dual right)
  | .scale name factor => (bench.dual name).scale (bench.handle factor)
  | .addScalar name scalar => (bench.dual name).addScalar (bench.handle scalar)
  | .copy name => pure (bench.dual name)

def keepHandle (bench : Workbench) (out : Option String) (handle : Handle) :
    Workbench :=
  match out with
  | some name => { bench with handles := bench.handles.assign name handle }
  | none => bench

def keepDual (bench : Workbench) (out : Option String) (dual : Dual) :
    Workbench :=
  match out with
  | some name => { bench with duals := bench.duals.assign name dual }
  | none => bench

/-- Performs a request on a named session.  A handle or dual number that it
gives is kept under `out`, unless the request fails. -/
def perform (bench : Workbench) (name : String) (out : Option String)
    (request : Request) : Except RecordingFault Answer × Workbench :=
  let place := bench.sessions.find? name
  match request with
  | .start label =>
      match bench.studio.start label with
      | .ok (started, studio) =>
          (.ok .done,
            { bench with studio, sessions := bench.sessions.assign name started })
      | .error fault => (.error fault, bench)
  | .stop =>
      match bench.studio.stop place with
      | .ok (graph, studio) => (.ok (.graph graph), { bench with studio })
      | .error fault => (.error fault, bench)
  | .stopActive =>
      match bench.studio.stopActive with
      | .ok (graph, studio) => (.ok (.graph graph), { bench with studio })
      | .error fault => (.error fault, bench)
  | .active =>
      (.ok (.active bench.studio.active.isSome (bench.studio.active == place)), bench)
  | .isRecording =>
      (.ok (.isRecording (bench.studio.session place).isRecording), bench)
  | .size =>
      let (outcome, studio) := bench.studio.runStep place Recording.size.run
      (outcome.map .count, { bench with studio })
  | .node handle =>
      let (outcome, studio) :=
        bench.studio.runStep place (Recording.nodeOf (bench.handle handle)).run
      (outcome.map .node, { bench with studio })
  | .inspect handle => (.ok (.inspected (bench.handle handle)), bench)
  | .scalar request =>
      let (outcome, studio) :=
        bench.studio.runStep place (bench.scalarStep request).run
      let bench := { bench with studio }
      match outcome with
      | .ok handle => (.ok (.handle handle), bench.keepHandle out handle)
      | .error fault => (.error fault, bench)
  | .assign destination source =>
      let (outcome, studio) := bench.studio.runStep place
        (Recording.assign (bench.handle (.named destination)) (bench.handle source)).run
      let bench := { bench with studio }
      match outcome with
      | .ok handle =>
          (.ok (.handle handle),
            { bench with handles := bench.handles.assign destination handle })
      | .error fault => (.error fault, bench)
  | .dual request =>
      let (outcome, studio) :=
        bench.studio.runStep place (bench.dualStep request).run
      let bench := { bench with studio }
      match outcome with
      | .ok dual => (.ok (.dual dual), bench.keepDual out dual)
      | .error fault => (.error fault, bench)
  | .assignDual destination source =>
      let ((dual, outcome), studio) := bench.studio.runStep place
        (Dual.assign (bench.dual destination) (bench.dual source))
      let bench :=
        { bench with studio, duals := bench.duals.assign destination dual }
      (outcome.map fun _ => .dual dual, bench)

end Workbench

end CostTape
