import CostTape.Text.CaseFold
import CostTape.Text.Quoted

/-! Kinds of elementary operations and the shape each one demands. -/

namespace CostTape

/-- What a node does.  Codes outside the table are kept as they are. -/
inductive Kind where
  | constant
  | input
  | output
  | assignment
  | unary
  | binary
  | comparison
  | negation
  | call
  | nop
  | unlisted (code : Int) (outside : code < 0 ∨ 10 ≤ code)
deriving DecidableEq

namespace Kind

instance : Inhabited Kind := ⟨constant⟩

def listed : List Kind :=
  [constant, input, output, assignment, unary, binary, comparison, negation,
    call, nop]

def code : Kind → Int
  | constant => 0
  | input => 1
  | output => 2
  | assignment => 3
  | unary => 4
  | binary => 5
  | comparison => 6
  | negation => 7
  | call => 8
  | nop => 9
  | unlisted code _ => code

def ofCode (code : Int) : Kind :=
  if outside : code < 0 ∨ 10 ≤ code then
    unlisted code outside
  else
    match code.toNat with
    | 0 => constant
    | 1 => input
    | 2 => output
    | 3 => assignment
    | 4 => unary
    | 5 => binary
    | 6 => comparison
    | 7 => negation
    | 8 => call
    | _ => nop

def isListed : Kind → Bool
  | unlisted _ _ => false
  | _ => true

def name : Kind → String
  | constant => "COMPILE_TIME_CONSTANT"
  | input => "INPUT_ASSIGNMENT"
  | output => "OUTPUT_ASSIGNMENT"
  | assignment => "ASSIGNMENT"
  | unary => "UNARY_ARITHMETIC"
  | binary => "BINARY_ARITHMETIC"
  | comparison => "BINARY_COMPARISON"
  | negation => "LOGICAL_NEGATION"
  | call => "FUNCTION_CALL"
  | nop => "NOP"
  | unlisted code _ => s!"Kind({code})"

def ofName? (text : String) : Option Kind :=
  listed.find? fun kind => Text.sameName text kind.name

def unknownMessage (text : String) : String :=
  "unknown expression kind " ++ Text.quoted text

def writtenName (kind : Kind) : Except String String :=
  if kind.isListed then .ok kind.name
  else .error s!"cannot marshal invalid kind {kind.code}"

def arity? : Kind → Option Nat
  | constant | input | nop => some 0
  | output | assignment | unary | negation => some 1
  | binary | comparison => some 2
  | call | unlisted _ _ => none

/-- The kind means nothing without an operator, function or variable name. -/
def needsSymbol : Kind → Bool
  | input | output | unary | binary | comparison | call => true
  | _ => false

@[simp] theorem ofCode_code (kind : Kind) : ofCode kind.code = kind := by
  cases kind with
  | unlisted _ outside => simp [Kind.code, ofCode, outside]
  | _ => rfl

end Kind

end CostTape
