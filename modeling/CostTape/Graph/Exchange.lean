import CostTape.Graph.Validation

/-! What can go wrong when graphs are exchanged as text. -/

namespace CostTape

namespace Graph

inductive WriteFault where
  | unlistedKind (code : Int)
  | unwritableValue (value : Float)
deriving DecidableEq

def WriteFault.message : WriteFault → String
  | .unlistedKind code => s!"cannot marshal invalid kind {code}"
  | .unwritableValue value => "json: unsupported value: " ++ NumberLayout.trace.text value

inductive ReadFault where
  /-- It does not keep the rules of the format, or a part has the wrong type. -/
  | malformed
  | unknownKind (name : String)
  | flawed (flaws : List Flaw)
deriving DecidableEq

def ReadFault.message : ReadFault → String
  | .malformed => "malformed text"
  | .unknownKind name => Kind.unknownMessage name
  | .flawed flaws => flawsMessage flaws

/-- Reading the parts of a graph: a kind that is not known ends it at once, and
a part of the wrong type is passed over and remembered. -/
abbrev PartRead := StateT Bool (Except ReadFault)

namespace PartRead

/-- Keeps what was there and remembers that a part had the wrong type. -/
def mismatch (kept : α) : PartRead α := do
  set true
  pure kept

def take (kept : α) : Option α → PartRead α
  | some found => pure found
  | none => mismatch kept

def kindNamed (name : String) : PartRead Kind :=
  match Kind.ofName? name with
  | some kind => pure kind
  | none => throw (.unknownKind name)

end PartRead

def PartRead.whole (read : PartRead α) : Except ReadFault α :=
  match read.run false with
  | .ok (found, false) => .ok found
  | .ok (_, true) => .error .malformed
  | .error fault => .error fault

/-- A reader finds the nodes that a document lists, or no list at all if the document is
empty or null. -/
abbrev NodeReader (Symbol Document : Type) :=
  Document → Except ReadFault (Option (List (Node Symbol)))

abbrev Reception (Symbol : Type) := ExceptT ReadFault (StateM (Graph Symbol))

variable {Symbol : Type} [DecidableEq Symbol] [SymbolType Symbol]

namespace Reception

/-- Replaces the graph by that of the nodes if they keep its rules. -/
def store (nodes : List (Node Symbol)) : Reception Symbol Unit :=
  match ofNodes nodes.toArray with
  | .ok graph => set graph
  | .error flaws => throw (.flawed flaws)

def fresh (reception : Reception Symbol Unit) : Except ReadFault (Graph Symbol) :=
  match reception.run.run .empty with
  | (.ok _, graph) => .ok graph
  | (.error fault, _) => .error fault

end Reception

/-- Without a list of nodes the graph stays as it is. -/
def receive {Document : Type} (reader : NodeReader Symbol Document)
    (document : Document) : Reception Symbol Unit :=
  match reader document with
  | .ok (some nodes) => Reception.store nodes
  | .ok none => pure ()
  | .error fault => throw fault

end Graph

namespace Node

def writtenKind {Symbol : Type} (node : Node Symbol) : Except Graph.WriteFault String :=
  if node.kind.isListed then .ok node.kind.name
  else .error (.unlistedKind node.kind.code)

end Node

end CostTape
