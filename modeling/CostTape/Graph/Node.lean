import CostTape.Decimal.Layout
import CostTape.Graph.Kind

/-! Nodes of a trace: one recorded elementary operation each. -/

namespace CostTape

/-- The place of a node in its trace, and the slot that it owns. -/
abbrev NodeId := Int

namespace NodeId

def invalid : NodeId := -1

def isValid (id : NodeId) : Bool :=
  0 ≤ id

def text (id : NodeId) : String :=
  if id.isValid then s!"v_{id}" else "v_invalid"

def precedes (id : NodeId) (position : Nat) : Bool :=
  0 ≤ id && id < position

theorem precedes_iff {id : Int} {position : Nat} :
    NodeId.precedes id position = true ↔ 0 ≤ id ∧ id < position := by
  simp [precedes]

theorem precedes_natCast {place position : Nat} :
    NodeId.precedes place position = true ↔ place < position := by
  simp [precedes]

theorem precedes_mono {id : NodeId} {position later : Nat}
    (earlier : position ≤ later) (precedes : id.precedes position = true) :
    id.precedes later = true := by
  rw [precedes_iff] at precedes ⊢
  omega

theorem ne_of_precedes {id : NodeId} {position place : Nat}
    (precedes : id.precedes position = true) (reached : position ≤ place) :
    id ≠ place := by
  rintro rfl
  rw [precedes_natCast] at precedes
  omega

end NodeId

/-- A type of symbols.  It holds every text, and may hold more, such as bytes that spell
no text. -/
class SymbolType (Symbol : Type) where
  ofText : String → Symbol
  text? : Symbol → Option String
  text?_ofText : ∀ text, text? (ofText text) = some text

instance : SymbolType String where
  ofText := id
  text? := some
  text?_ofText _ := rfl

@[simp] theorem SymbolType.ofText_string (text : String) :
    (SymbolType.ofText text : String) = text := rfl

instance : SymbolType ByteArray where
  ofText := String.toUTF8
  text? := String.fromUTF8?
  text?_ofText text := by
    simpa [String.fromUTF8?] using ⟨text.isValidUTF8, rfl⟩

example : SymbolType.text? (ByteArray.mk #[0xff]) = none := by decide

structure Node (Symbol : Type := String) where
  id : NodeId
  kind : Kind
  /-- The slot written: the node's own, except for assignments. -/
  target : NodeId
  /-- The literal of a constant. -/
  value : Float
  /-- The operator, function or external variable. -/
  symbol : Symbol
  args : List NodeId
deriving DecidableEq

namespace Node

def zero (Symbol : Type := String) [SymbolType Symbol] : Node Symbol :=
  ⟨0, .constant, 0, 0.0, SymbolType.ofText "", []⟩

instance : Inhabited Node := ⟨zero⟩

def isArithmetic (node : Node) : Bool :=
  node.kind = .unary || node.kind = .binary

def isConstant (node : Node) : Bool :=
  node.kind = .constant

def isTransfer (node : Node) : Bool :=
  node.kind = .assignment || node.kind = .input || node.kind = .output

/-- Dropping the node could be observed even if nothing reads its slot. -/
def hasEffect (node : Node) : Bool :=
  node.kind = .output || node.kind = .assignment

/-- The node is a constant with that literal; `NaN` equals nothing. -/
def isLiteral (node : Node) (value : Float) : Bool :=
  node.isConstant && node.value == value

def dependsOn (node : Node) (id : NodeId) : Bool :=
  node.args.contains id

/-- Computing `other` makes computing `node` redundant: equal literals, or the
same operation on the same operands.  Ids and targets do not count. -/
def replaceableBy (node other : Node) : Bool :=
  if node.isConstant && other.isConstant then
    node.value == other.value
  else
    node.kind = other.kind && node.symbol == other.symbol && node.args == other.args

def argText (node : Node) (place : Nat) : String :=
  match node.args[place]? with
  | some id => NodeId.text id
  | none => "?"

def text (node : Node) : String :=
  let target := node.target.text
  match node.kind with
  | .constant => s!"{target} = " ++ NumberLayout.trace.text node.value
  | .input => s!"{target} = " ++ node.symbol
  | .output => node.symbol ++ " = " ++ node.argText 0
  | .assignment => s!"{target} = " ++ node.argText 0
  | .unary => s!"{target} = " ++ node.symbol ++ node.argText 0
  | .negation => s!"{target} = !" ++ node.argText 0
  | .binary | .comparison =>
      s!"{target} = " ++ node.argText 0 ++ " " ++ node.symbol ++ " " ++ node.argText 1
  | .call =>
      s!"{target} = " ++ node.symbol ++ "(" ++
        ", ".intercalate (node.args.map NodeId.text) ++ ")"
  | .nop => "// nop"
  | .unlisted _ _ => s!"{target} = <" ++ node.kind.name ++ ">"

end Node

end CostTape
