import CostTape.Script.CallFault

/-! What stops a running script. -/

namespace CostTape.Script

inductive RunFault where
  | unbound (name : String)
  /-- A name stands for a symbol that stands for nothing. -/
  | unresolved (name symbol : String)
  | notFunction (name : String)
  | notApplicable (value : Value)
  | wrongCount (name : String) (want got : Nat)
  | tooFew (want got : Nat)
  | otherKind (source target : ValueKind)
  | noTarget (value : Value)
  | targetSource (source target : Value)
  | targetCount (want got : Nat)
  | targetItem (index : Nat) (item : Value)
  | noLoop (loop : Nat)
  | refuted (condition : Datum)
  | shortStack
  | inCall (fault : CallFault)
  | calling (name : String) (fault : RunFault)
  /-- The script takes more steps than it is given. -/
  | exhausted

namespace RunFault

def message : RunFault → String
  | unbound name => "symbol `" ++ name ++ "` not found"
  | unresolved name symbol =>
      "'" ++ name ++ "' refers to symbol '" ++ symbol ++ "', but '" ++ symbol ++
        "' could not be resolved: 'symbol `" ++ symbol ++ "` not found'."
  | notFunction name => name ++ " is not a function"
  | notApplicable value =>
      "unbalanced parenthesis in the input? : not a function on top of datastack: '" ++
        value.typeName ++ "/" ++ value.shape ++ "'"
  | wrongCount name want got => name ++ s!" expected {want} arguments, got {got}"
  | tooFew want got => s!"Expected >{want} arguments, got {got}"
  | otherKind source target => "cannot assign " ++ source.name ++ " to " ++ target.name
  | noTarget value => "AssignInstr: don't know how to assign to lhs " ++ value.typeName
  | targetSource source target =>
      "AssignInstr: don't know how to assign rhs " ++ source.typeName ++ " `" ++
        source.print ++ "` to lhs " ++ target.typeName ++ " `" ++ target.print ++ "`"
  | targetCount want got => s!"assignment count mismatch: {want} != {got}"
  | targetItem index item =>
      s!"assignment error: left-hand-side element {index} needs to be a symbol but" ++
        " instead we found " ++ item.typeName
  | noLoop loop => s!"could not find loop target '__loop{loop}'"
  | refuted condition => "Assertion failed: " ++ condition.print ++ "\n"
  | shortStack => "not enough items on stack"
  | inCall fault => fault.message
  | calling name fault => "Error calling '" ++ name ++ "': " ++ fault.message
  | exhausted => "evaluation is exhausted"

end RunFault

end CostTape.Script
