import CostTape.Recording.Session

/-! Operators with a fixed number of operands. -/

namespace CostTape

inductive UnaryOperator where
  | negate
  | not
  | sin
  | cos
  | sqrt
  | exp
  | log
deriving DecidableEq

namespace UnaryOperator

def kind : UnaryOperator → Kind
  | negate => .unary
  | not => .negation
  | _ => .call

def symbol : UnaryOperator → String
  | negate => "-"
  | not => "!"
  | sin => "sin"
  | cos => "cos"
  | sqrt => "sqrt"
  | exp => "exp"
  | log => "log"

end UnaryOperator

inductive BinaryOperator where
  | add
  | sub
  | mul
  | div
  | pow
  | atan2
  | less
  | lessEqual
  | greater
  | greaterEqual
  | equal
  | notEqual
deriving DecidableEq

namespace BinaryOperator

def kind : BinaryOperator → Kind
  | add | sub | mul | div => .binary
  | pow | atan2 => .call
  | _ => .comparison

def symbol : BinaryOperator → String
  | add => "+"
  | sub => "-"
  | mul => "*"
  | div => "/"
  | pow => "pow"
  | atan2 => "atan2"
  | less => "<"
  | lessEqual => "<="
  | greater => ">"
  | greaterEqual => ">="
  | equal => "=="
  | notEqual => "!="

end BinaryOperator

namespace Recording

def unary (operator : UnaryOperator) (value : Handle) : Recording Handle :=
  apply operator.kind operator.symbol [value]

def binary (operator : BinaryOperator) (left right : Handle) : Recording Handle :=
  apply operator.kind operator.symbol [left, right]

end Recording

end CostTape
