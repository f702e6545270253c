import CostTape.Dual.Operator
import CostTape.Script.Form
import CostTape.Script.Instruction

/-! Values of scripts. -/

namespace CostTape.Script

inductive Builtin where
  | constant
  | param
  | output
  | unary (operator : UnaryOperator)
  | binary (operator : BinaryOperator)
  | call
  | ternary
  | assign
  | dual
  | primal
  | partialAt
  | nop
deriving DecidableEq

namespace Builtin

def all : List Builtin :=
  [constant, param, output, binary .add, binary .sub, binary .mul, binary .div,
    binary .pow, binary .atan2, unary .negate, unary .sin, unary .cos, unary .sqrt,
    unary .exp, unary .log, unary .not, binary .less, binary .lessEqual,
    binary .greater, binary .greaterEqual, binary .equal, binary .notEqual, call,
    ternary, assign, dual, primal, partialAt, nop]

def name : Builtin → String
  | constant => "constant"
  | param => "param"
  | output => "output"
  | unary .negate => "neg"
  | unary .not => "lnot"
  | unary .sin => "sin"
  | unary .cos => "cos"
  | unary .sqrt => "sqrt"
  | unary .exp => "exp"
  | unary .log => "log"
  | binary .add => "add"
  | binary .sub => "sub"
  | binary .mul => "mul"
  | binary .div => "div"
  | binary .pow => "pow"
  | binary .atan2 => "atan2"
  | binary .less => "lt"
  | binary .lessEqual => "le"
  | binary .greater => "gt"
  | binary .greaterEqual => "ge"
  | binary .equal => "eq"
  | binary .notEqual => "ne"
  | call => "call"
  | ternary => "ternary"
  | assign => "assign"
  | dual => "dual"
  | primal => "primal"
  | partialAt => "partial"
  | nop => "nop"

end Builtin

structure Closure where
  label : String
  params : List String
  /-- Whether the last parameter gathers the arguments that are left. -/
  gathers : Bool
  code : Code
  source : Datum
  captured : List Nat

inductive ValueKind where
  | int
  | word
  | float
  | text
  | bool
  | many (items : ValueKind)
deriving DecidableEq

def ValueKind.name : ValueKind → String
  | int => "int64"
  | word => "uint64"
  | float => "float64"
  | text => "string"
  | bool => "bool"
  | many items => "([]" ++ items.name ++ ")"

/-- Where an array keeps its items: a run of places in a store, which it may
share with others. -/
structure ArrayPlace where
  store : Nat
  offset : Nat
  length : Nat
  /-- The kind of the array, if it was made with one. -/
  kind : Option ValueKind
deriving DecidableEq

/-- A list is never empty: the empty list is the literal `nil`. -/
inductive Value where
  | literal (value : Literal)
  | symbol (name : String) (inert : Bool)
  /-- The items are those that were last read from the store. -/
  | array (place : ArrayPlace) (items : List Value)
  | list (head : Value) (tail : List Value)
  | core (function : CoreFunction)
  | builtin (function : Builtin)
  | closure (function : Closure)
  | handle (scalar : Handle)
  | dual (number : Dual)
  /-- The mark that a loop leaves on the stack. -/
  | mark (loop : Nat)

namespace Value

def nil : Value :=
  literal .nil

instance : Inhabited Value := ⟨nil⟩

def bool (flag : Bool) : Value :=
  literal (.bool flag)

def int (value : Int64) : Value :=
  literal (.int value)

def float (value : Float) : Value :=
  literal (.float value false)

def text (body : String) : Value :=
  literal (.text body false)

def ofList : List Value → Value
  | [] => nil
  | head :: tail => list head tail

mutual

def print : Value → String
  | literal value => value.print
  | symbol name _ => name
  | array _ items => "[" ++ Datum.spaced (printAll items) ++ "]"
  | list head tail => "(" ++ Datum.spaced (head.print :: printAll tail) ++ ")"
  | core function => "fn [" ++ function.name ++ "]"
  | builtin function => "fn [" ++ function.name ++ "]"
  | closure function => function.source.print
  | handle scalar => "(expr " ++ scalar.text ++ ")"
  | dual number => "(dual " ++ number.text ++ ")"
  | mark loop => s!"stackmark __loop{loop}"

def printAll : List Value → List String
  | [] => []
  | head :: tail => head.print :: printAll tail

end

def typeName : Value → String
  | literal value => value.typeName
  | symbol _ _ => "*zygo.SexpSymbol"
  | array _ _ => "*zygo.SexpArray"
  | list _ _ => "*zygo.SexpPair"
  | core _ | builtin _ | closure _ => "*zygo.SexpFunction"
  | handle _ => "*engine.sexpRef"
  | dual _ => "*engine.sexpJet"
  | mark _ => "*zygo.SexpStackmark"

/-- The kind of a value, if it has one.  An array that was made without one has
that of its first item. -/
def kind? : Value → Option ValueKind
  | literal (.int _) => some .int
  | literal (.word _) => some .word
  | literal (.float _ _) => some .float
  | literal (.text _ _) => some .text
  | literal (.bool _) => some .bool
  | array place items =>
      place.kind.orElse fun _ =>
        match items with
        | [] => none
        | first :: _ => first.kind?.map .many
  | _ => none

/-- All values hold but `false`, zero as an integer or character, and `nil`. -/
def isTruthy : Value → Bool
  | literal (.bool flag) => flag
  | literal (.int value) => value != 0
  | literal (.char code) => code != 0
  | literal .nil => false
  | _ => true

def number? : Value → Option Float
  | literal (.int value) => some value.toFloat
  | literal (.float value _) => some value
  | _ => none

def int? : Value → Option Int
  | literal (.int value) => some value.toInt
  | _ => none

def text? : Value → Option String
  | literal (.text body _) => some body
  | _ => none

def dual? : Value → Option Dual
  | dual number => some number
  | _ => none

def scalar? : Value → Option Handle
  | handle scalar => some scalar
  | value => value.number?.map .literal

end Value

end CostTape.Script
