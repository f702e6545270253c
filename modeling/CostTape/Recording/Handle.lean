import CostTape.Graph.Node

/-! Handles: the operands of recorded operations. -/

namespace CostTape

/-- A handle names a node, carries a literal that is not recorded yet, or is
unset. -/
inductive Handle where
  | unset
  | bound (id : NodeId)
  | literal (value : Float)
deriving DecidableEq

namespace Handle

instance : Inhabited Handle := ⟨unset⟩

def id : Handle → NodeId
  | bound id => id
  | _ => NodeId.invalid

def isSet : Handle → Bool
  | unset => false
  | _ => true

def literal? : Handle → Option Float
  | literal value => some value
  | _ => none

def text : Handle → String
  | bound id => id.text
  | literal value => NumberLayout.trace.text value
  | unset => "<unset>"

end Handle

end CostTape
