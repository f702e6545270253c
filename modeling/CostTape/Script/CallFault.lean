import CostTape.Script.Value

/-! What can be wrong with the arguments of a function. -/

namespace CostTape.Script

private def fields (name : String) (parts : List String) : String :=
  "&zygo." ++ name ++ "\x7b" ++ ", ".intercalate parts ++ "\x7d"

def Value.shape (value : Value) : String :=
  let untyped := "Typ:(*zygo.RegisteredType)(nil)"
  match value with
  | .literal .nil => fields "SexpSentinel" ["Val:0"]
  | .literal (.bool flag) =>
      fields "SexpBool" ["Val:" ++ (if flag then "true" else "false"), untyped]
  | .literal (.int number) => fields "SexpInt" [s!"Val:{number.toInt}", untyped]
  | .literal (.word number) =>
      fields "SexpUint64"
        ["Val:0x" ++ String.ofList (Nat.toDigits 16 number.toNat), untyped]
  | .literal (.float number scientific) =>
      fields "SexpFloat"
        ["Val:" ++ NumberLayout.trace.text number, untyped,
          "Scientific:" ++ (if scientific then "true" else "false")]
  | .literal (.text body raw) =>
      fields "SexpStr"
        ["S:" ++ Text.quoted body, "backtick:" ++ (if raw then "true" else "false"),
          untyped]
  | .literal (.char code) => fields "SexpChar" [s!"Val:{code.toInt}", untyped]
  | .literal .comma => fields "SexpComma" []
  | _ => value.print

inductive Expectation where
  | number
  | integer
  | text
  | scalar
deriving DecidableEq

def Expectation.name : Expectation → String
  | .number => "number"
  | .integer => "integer"
  | .text => "string"
  | .scalar => "number or expression"

inductive CallFault where
  | argumentCount
  | operandType
  | emptyArray
  | indexOutOfBounds
  | notAnArray
  | indexType (value : Value)
  | noLength
  | notConcatenable
  | notAText (place : Nat) (value : Value)
  | notAnArrayAt (place : Nat)
  | notAList
  | constructorName
  | notAPointer (value : Value)
  | uncomparable (code : Nat) (left right : Value)
  | divisionByZero (function : String)
  | mappedFunction (value : Value)
  | mappedItems (value : Value)
  /-- A function asks for other arguments than it got. -/
  | demands (subject demand : String) (got : Option Nat)
  | expected (place : String) (what : Expectation) (value : Value)
  | expectedDual (subject : String) (value : Value)
  | undefinedForDuals (subject : String)
  | dualOutput
  | unequalDims (subject : String) (left right : Nat)
  | dualSource
  | notAssignable (value : Value)
  | negativeDims (dims : Int)
  | seedOutside (seed dims : Int)
  | indexOutside (index : Int) (dims : Nat)
  | recording (subject : String) (fault : RecordingFault)

namespace CallFault

def message : CallFault → String
  | argumentCount => "wrong number of arguments"
  | operandType => "operands have invalid type"
  | emptyArray => "first called on empty array"
  | indexOutOfBounds => "Array index out of bounds"
  | notAnArray => "First argument of aget must be array"
  | indexType value =>
      "Second argument of aget could not be evaluated to integer; got j = '" ++
        value.shape ++ "'/type = " ++ value.typeName
  | noLength => "argument must be string, list, hash, or array"
  | notConcatenable => "expected strings, lists or arrays"
  | notAText place value =>
      s!"ConcatStr error: {place}-th argument (0-based) is not a string (was " ++
        value.typeName ++ ")"
  | notAnArrayAt place =>
      s!"ConcatArray error: {place}-th argument (0-based) is not an array"
  | notAList => "not a list"
  | constructorName => "invalid constructor"
  | notAPointer value =>
      "argument x in (* x) was not regtype or SexpPointer, instead type " ++
        value.typeName ++ " displaying as '" ++ value.print ++ "' "
  | uncomparable code left right =>
      s!"err {code}: cannot compare " ++ left.typeName ++ " to " ++ right.typeName
  | divisionByZero function =>
      "CallUserFunction caught panic during call of '" ++ function ++
        "': 'runtime error: integer divide by zero'"
  | mappedFunction value =>
      "first argument must be function, but we had " ++ value.typeName ++
        " / val = '" ++ value.shape ++ "'"
  | mappedItems value =>
      "second argument must be array or list; we saw " ++ value.typeName ++
        " / val = " ++ value.shape
  | demands subject demand got =>
      subject ++ " requires " ++ demand ++
        match got with
        | some count => s!", got {count}"
        | none => ""
  | expected place what value =>
      place ++ ": expected " ++ what.name ++ ", got " ++ value.typeName ++ " (" ++
        value.print ++ ")"
  | expectedDual subject value =>
      subject ++ ": expected dual number, got " ++ value.typeName
  | undefinedForDuals subject => subject ++ " is not defined for dual numbers"
  | dualOutput => "output: dual number; use (primal j) or (partial j k)"
  | unequalDims subject left right =>
      subject ++ s!": dual numbers have {left} and {right} partials"
  | dualSource => "assign: dual destination needs a dual value"
  | notAssignable value =>
      "assign: destination must be an expression, got " ++ value.typeName
  | negativeDims dims => s!"dual: dims must not be negative, got {dims}"
  | seedOutside seed dims => s!"dual: seed {seed} outside [0, {dims})"
  | indexOutside index dims => s!"partial: index {index} outside [0, {dims})"
  | recording subject fault => subject ++ ": " ++ fault.message

end CallFault

end CostTape.Script
