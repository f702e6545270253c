import CostTape.Names
import CostTape.Script.CallFault
import CostTape.Script.Spelling

/-! The functions that record. -/

namespace CostTape.Script

/-- A call that records into a session.  A call that fails keeps what it had
recorded before. -/
abbrev RecordingCall := ExceptT CallFault (StateM Session)

namespace RecordingCall

def runOn (call : RecordingCall α) (session : Session) : Except CallFault α × Session :=
  call.run session

def perform (name : String) (step : Recording α) : RecordingCall α :=
  ExceptT.mk do
    let outcome ← step.run
    pure (outcome.mapError (CallFault.recording name))

def demand (place : String) (what : Expectation) (value : Value) :
    Option α → RecordingCall α
  | some found => pure found
  | none => throw (.expected place what value)

def number (place : String) (value : Value) : RecordingCall Float :=
  demand place .number value value.number?

def integer (place : String) (value : Value) : RecordingCall Int :=
  demand place .integer value value.int?

def text (place : String) (value : Value) : RecordingCall String :=
  demand place .text value value.text?

def scalar (place : String) (value : Value) : RecordingCall Handle :=
  demand place .scalar value value.scalar?

end RecordingCall

structure Arguments where
  positional : List Value
  keywords : Names Value

namespace Arguments

/-- A keyword text takes the argument after it, whatever that is; at the end it
stands for `nil`.  Of one keyword given twice the last counts. -/
def ofList : List Value → Arguments
  | [] => ⟨[], []⟩
  | [value] =>
      match value.text?.bind Spelling.keywordName? with
      | some name => ⟨[], [(name, .nil)]⟩
      | none => ⟨[value], []⟩
  | value :: next :: rest =>
      match value.text?.bind Spelling.keywordName? with
      | some name =>
          let others := ofList rest
          { others with
            keywords :=
              if (others.keywords.find? name).isSome then others.keywords
              else (name, next) :: others.keywords }
      | none =>
          let others := ofList (next :: rest)
          { others with positional := value :: others.positional }

end Arguments

namespace Builtin

open RecordingCall

/-- Lifts two operands to dual numbers if one of them is one.  A scalar is
recorded, and its partials are zero. -/
def liftDuals (name : String) (left right : Value) :
    RecordingCall (Option (Dual × Dual)) := do
  match left.dual?, right.dual? with
  | none, none => pure none
  | some first, some second => checked first second
  | none, some second => do
      let handle ← scalar name left
      let first ← perform name do
        Dual.ofHandle (← Recording.materialize handle) second.dims
      checked first second
  | some first, none => do
      let handle ← scalar name right
      let second ← perform name do
        Dual.ofHandle (← Recording.materialize handle) first.dims
      checked first second
where
  checked (first second : Dual) : RecordingCall (Option (Dual × Dual)) :=
    if first.dims = second.dims then pure (some (first, second))
    else throw (.unequalDims name first.dims second.dims)

def applyBinary (operator : BinaryOperator) (name : String) :
    List Value → RecordingCall Value
  | [left, right] => do
      let scalars : RecordingCall Value := do
        let first ← scalar (name ++ ": lhs") left
        let second ← scalar (name ++ ": rhs") right
        Value.handle <$> perform name (Recording.binary operator first second)
      match Dual.binary? operator with
      | none => scalars
      | some operation =>
          match ← liftDuals name left right with
          | some (first, second) =>
              Value.dual <$> perform name (operation.apply first second)
          | none => scalars
  | args => throw (.demands name "2 arguments" args.length)

def applyUnary (operator : UnaryOperator) (name : String) :
    List Value → RecordingCall Value
  | [value] =>
      match value.dual? with
      | some number =>
          match Dual.unary? operator with
          | some operation => Value.dual <$> perform name (operation.apply number)
          | none => throw (.undefinedForDuals name)
      | none => do
          let operand ← scalar name value
          Value.handle <$> perform name (Recording.unary operator operand)
  | args => throw (.demands name "1 argument" args.length)

def applyConstant (name : String) : List Value → RecordingCall Value
  | [value] => do
      let literal ← number "constant" value
      Value.handle <$> perform name (Recording.constant literal)
  | args => throw (.demands "constant" "exactly 1 argument" args.length)

def applyParam (name : String) : List Value → RecordingCall Value
  | [value] => do
      let input ← text "param: name" value
      Value.handle <$> perform name (Recording.parameter input)
  | _ => throw (.demands "param" "a name argument" none)

def applyOutput (name : String) : List Value → RecordingCall Value
  | [target, value] => do
      let output ← text "output: name" target
      if value.dual?.isSome then
        throw .dualOutput
      else
        let operand ← scalar "output: value" value
        Value.handle <$> perform name (Recording.output output operand)
  | _ => throw (.demands "output" "a name and a value" none)

def scalars (place : String) (args : List Value) :
    RecordingCall (List Handle) :=
  args.zipIdx.mapM fun (value, index) =>
    scalar (place ++ s!": argument {index + 1}") value

def applyCall (name : String) : List Value → RecordingCall Value
  | [] => throw (.demands "call" "a function name" none)
  | target :: args => do
      let function ← text "call: name" target
      let operands ← scalars ("call " ++ function) args
      Value.handle <$> perform name (Recording.call function operands)

def applyTernary (name : String) (args : List Value) : RecordingCall Value := do
  if args.length = 3 then
    match ← scalars "ternary" args with
    | [condition, first, second] =>
        Value.handle <$> perform name (Recording.ternary condition first second)
    | _ => throw (.demands "ternary" "3 arguments" args.length)
  else
    throw (.demands "ternary" "3 arguments" args.length)

/-- Overwrites the variable that a recorded scalar or dual number holds.  What the
destination has become is given also if that fails. -/
def overwrite (name : String) (destination value : Value) :
    StateM Session (Value × Except CallFault Unit) := do
  match destination with
  | .handle target =>
      let assigning : RecordingCall Handle := do
        let source ← scalar "assign: value" value
        perform name (Recording.assign target source)
      match ← assigning.run with
      | .ok assigned => pure (.handle assigned, .ok ())
      | .error fault => pure (destination, .error fault)
  | .dual target =>
      match value.dual? with
      | none => pure (destination, .error .dualSource)
      | some source =>
          let (assigned, outcome) ← Dual.assign target source
          pure (.dual assigned, outcome.mapError (CallFault.recording name))
  | _ => pure (destination, .error (.notAssignable destination))

def applyAssign (name : String) : List Value → RecordingCall Value
  | [destination, value] => do
      let (assigned, outcome) ← ExceptT.lift (overwrite name destination value)
      match outcome with
      | .ok () => pure assigned
      | .error fault => throw fault
  | _ => throw (.demands "assign" "a destination and a value" none)

def dualDims (keywords : Names Value) : RecordingCall Int :=
  match keywords.find? "dims" with
  | none => pure 1
  | some value => do
      let dims ← integer "dual: dims" value
      if dims < 0 then throw (.negativeDims dims) else pure dims

def dualSeed (keywords : Names Value) (dims : Int) :
    RecordingCall (Option Int) :=
  match keywords.find? "seed" with
  | none => pure none
  | some value => do
      let seed ← integer "dual: seed" value
      if seed < 0 ∨ dims ≤ seed then throw (.seedOutside seed dims) else pure (some seed)

def makeDual (name : String) (value : Value) (dims : Int) (seed : Option Int) :
    RecordingCall Value :=
  match value, seed with
  | .handle handle, none =>
      Value.dual <$> perform name (Dual.ofHandle handle dims)
  | .handle handle, some seed =>
      Value.dual <$> perform name do
        (← Dual.ofHandle handle dims).seed seed.toNat
  | _, none => do
      let primal ← number "dual: value" value
      Value.dual <$> perform name (Dual.constant primal dims)
  | _, some seed => do
      let primal ← number "dual: value" value
      Value.dual <$> perform name (Dual.seeded primal seed dims)

def applyDual (name : String) (args : List Value) : RecordingCall Value := do
  let args := Arguments.ofList args
  match args.positional with
  | [value] => do
      let dims ← dualDims args.keywords
      let seed ← dualSeed args.keywords dims
      makeDual name value dims seed
  | _ => throw (.demands "dual" "a value" none)

def applyPrimal : List Value → RecordingCall Value
  | [value] =>
      match value.dual? with
      | some number => pure (.handle number.primal)
      | none => throw (.expectedDual "primal" value)
  | _ => throw (.demands "primal" "1 argument" none)

def applyPartial : List Value → RecordingCall Value
  | [value, index] =>
      match value.dual? with
      | none => throw (.expectedDual "partial" value)
      | some number => do
          let index ← integer "partial: index" index
          match number.partialAt index with
          | .ok handle => pure (.handle handle)
          | .error _ => throw (.indexOutside index number.dims)
  | _ => throw (.demands "partial" "a dual number and an index" none)

def apply (function : Builtin) (name : String) (args : List Value) :
    RecordingCall Value :=
  match function with
  | .constant => applyConstant name args
  | .param => applyParam name args
  | .output => applyOutput name args
  | .unary operator => applyUnary operator name args
  | .binary operator => applyBinary operator name args
  | .call => applyCall name args
  | .ternary => applyTernary name args
  | .assign => applyAssign name args
  | .dual => applyDual name args
  | .primal => applyPrimal args
  | .partialAt => applyPartial args
  | .nop => Value.handle <$> perform name Recording.nop

end Builtin

end CostTape.Script
