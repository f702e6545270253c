import CostTape.Dual.Basic

/-! Operations on dual numbers, and the scalar operators that they extend. -/

namespace CostTape

namespace Dual

inductive UnaryOperation where
  | neg
  | sin
  | cos
  | sqrt
  | exp
  | log
deriving DecidableEq

def UnaryOperation.apply : UnaryOperation → Dual → Recording Dual
  | neg => Dual.neg
  | sin => Dual.sin
  | cos => Dual.cos
  | sqrt => Dual.sqrt
  | exp => Dual.exp
  | log => Dual.log

inductive BinaryOperation where
  | add
  | sub
  | mul
  | div
deriving DecidableEq

def BinaryOperation.apply : BinaryOperation → Dual → Dual → Recording Dual
  | add => Dual.add
  | sub => Dual.sub
  | mul => Dual.mul
  | div => Dual.div

def unary? : UnaryOperator → Option UnaryOperation
  | .negate => some .neg
  | .sin => some .sin
  | .cos => some .cos
  | .sqrt => some .sqrt
  | .exp => some .exp
  | .log => some .log
  | .not => none

def binary? : BinaryOperator → Option BinaryOperation
  | .add => some .add
  | .sub => some .sub
  | .mul => some .mul
  | .div => some .div
  | _ => none

end Dual

end CostTape
