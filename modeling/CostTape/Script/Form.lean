import CostTape.Script.Datum

/-! Forms: what can be wrong with their shape. -/

namespace CostTape.Script

def Literal.typeName : Literal → String
  | .nil => "*zygo.SexpSentinel"
  | .bool _ => "*zygo.SexpBool"
  | .int _ => "*zygo.SexpInt"
  | .word _ => "*zygo.SexpUint64"
  | .float _ _ => "*zygo.SexpFloat"
  | .text _ _ => "*zygo.SexpStr"
  | .char _ => "*zygo.SexpChar"
  | .comma => "*zygo.SexpComma"

def Datum.typeName : Datum → String
  | .literal value => value.typeName
  | .symbol _ _ => "*zygo.SexpSymbol"
  | .list _ _ => "*zygo.SexpPair"
  | .array _ => "*zygo.SexpArray"

inductive FormProblem where
  | definitionCount
  | definitionTarget (typeName : String)
  | protectedName (what name form : String)
  | functionCount
  | functionParams
  | functionName
  | functionParam
  | malformedFunction
  | malformedLet
  | letBindings
  | unevenLet
  | letTarget
  | noDefault
  | malformedLoop
  | loopControl
  | labelledLoopControl
  | loopControlSize
  | outsideLoop (form : String)
  | unknownLoop (form label : String)
  | assertionCount
deriving DecidableEq

def FormProblem.message : FormProblem → String
  | .definitionCount => "Wrong number of arguments to def"
  | .definitionTarget typeName =>
      "def: left-hand-side must be a symbol; we have " ++ typeName
  | .protectedName what name form =>
      "already have " ++ what ++ " '" ++ name ++ "', refusing to overwrite with " ++ form
  | .functionCount => "wrong number of arguments"
  | .functionParams => "function arguments must be in vector"
  | .functionName => "Definition name must be symbol"
  | .functionParam => "function argument must be symbol"
  | .malformedFunction => "malformed function definition"
  | .malformedLet => "malformed let statement"
  | .letBindings => "let bindings must be in array"
  | .unevenLet => "uneven let binding list"
  | .letTarget => "cannot bind to non-symbol"
  | .noDefault => "missing default case"
  | .malformedLoop => "malformed for loop"
  | .loopControl =>
      "for loop: first argument must be a label or a vector of [init predicate advance]"
  | .labelledLoopControl =>
      "for loop: 2nd argument after the label must be a vector of [init predicate advance]"
  | .loopControlSize =>
      "for loop: control vector argument wrong size; must be a vector of three [init test advance]"
  | .outsideLoop form => form ++ " found but not inside a loop"
  | .unknownLoop form label => form ++ " label '" ++ label ++ "' not found"
  | .assertionCount => "wrong number of arguments"

/-- A form is rejected inside of the forms around it, outermost first.  An
`and` or `or` without operands breaks the check itself. -/
inductive FormFault where
  | rejected (around : List Datum) (problem : FormProblem)
  | noOperands

namespace FormFault

def inside (form : Datum) : FormFault → FormFault
  | rejected around problem => rejected (form :: around) problem
  | noOperands => noOperands

def rejectedMessage (around : List Datum) (problem : FormProblem) : String :=
  around.foldr (fun form text => "Error generating " ++ form.print ++ ":\n" ++ text)
    problem.message

end FormFault

end CostTape.Script
