import CostTape.Graph.Exchange
import CostTape.Json.Reading

/-! Graphs as JSON. -/

namespace CostTape

namespace Node

/-- A value of zero, an empty symbol and an empty argument list are left out. -/
def toJson (node : Node) : Except Graph.WriteFault JsonValue := do
  let kind ← node.writtenKind
  let value ←
    if node.value == 0.0 then pure []
    else
      match JsonValue.float? node.value with
      | some value => pure [("value", value)]
      | none => throw (.unwritableValue node.value)
  pure (.object (
    [("id", .int node.id), ("kind", .text kind), ("target", .int node.target)] ++ value ++
      (if node.symbol == "" then [] else [("symbol", .text node.symbol)]) ++
      if node.args.isEmpty then [] else [("args", .array (node.args.map .int))]))

end Node

namespace Graph

def toJson (graph : Graph) : Except WriteFault JsonValue := do
  let nodes ← graph.nodes.toList.mapM Node.toJson
  pure (.object [("nodes", .array nodes)])

namespace JsonPart

open PartRead

def intOf? (digits : String) : Option Int :=
  let (negative, body) := Decimal.splitSign digits.toList
  if body.all Decimal.isDigit then
    let magnitude : Int := Decimal.natValue body
    let value := if negative then -magnitude else magnitude
    if -0x8000000000000000 ≤ value ∧ value < 0x8000000000000000 then some value else none
  else
    none

def floatOf? (digits : String) : Option Float :=
  (Decimal.readChars? digits.toList).bind fun value =>
    if value.isInf then none else some value

def int (kept : Int) : JsonValue → PartRead Int
  | .null => pure kept
  | .number digits => take kept (intOf? digits)
  | _ => mismatch kept

def float (kept : Float) : JsonValue → PartRead Float
  | .null => pure kept
  | .number digits => take kept (floatOf? digits)
  | _ => mismatch kept

def text (kept : String) : JsonValue → PartRead String
  | .null => pure kept
  | .text body => pure body
  | _ => mismatch kept

def kind (kept : Kind) : JsonValue → PartRead Kind
  | .null => pure kept
  | .text name => kindNamed name
  | _ => mismatch kept

def items (item : α → JsonValue → PartRead α) (blank : α) :
    List α → List JsonValue → PartRead (List α)
  | _, [] => pure []
  | kept, value :: values => do
      let first ← item (kept.headD blank) value
      let rest ← items item blank kept.tail values
      pure (first :: rest)

/-- A list that is read over: what it shows, and what earlier readings have left
behind its end. -/
structure Shelf (α : Type) where
  shown : List α
  behind : List α

/-- Items are read onto whatever stands at their places, shown or not; a list
without items clears the shelf. -/
def array (item : α → JsonValue → PartRead α) (blank : α) (kept : Shelf α) :
    JsonValue → PartRead (Shelf α)
  | .null => pure ⟨[], []⟩
  | .array [] => pure ⟨[], []⟩
  | .array values => do
      let places := kept.shown ++ kept.behind
      let shown ← items item blank places values
      pure ⟨shown, places.drop values.length⟩
  | _ => mismatch kept

structure Draft where
  node : Node
  spareArgs : List NodeId

def Draft.blank : Draft :=
  ⟨.zero, []⟩

/-- One field of a node.  Names match in any letter case, and unknown ones are
passed over. -/
def nodeField (draft : Draft) (name : String) (value : JsonValue) : PartRead Draft := do
  if Text.sameName name "id" then
    pure { draft with node.id := ← int draft.node.id value }
  else if Text.sameName name "kind" then
    pure { draft with node.kind := ← kind draft.node.kind value }
  else if Text.sameName name "target" then
    pure { draft with node.target := ← int draft.node.target value }
  else if Text.sameName name "value" then
    pure { draft with node.value := ← float draft.node.value value }
  else if Text.sameName name "symbol" then
    pure { draft with node.symbol := ← text draft.node.symbol value }
  else if Text.sameName name "args" then
    let args ← array int 0 ⟨draft.node.args, draft.spareArgs⟩ value
    pure { draft with node.args := args.shown, spareArgs := args.behind }
  else
    pure draft

def node (kept : Draft) : JsonValue → PartRead Draft
  | .null => pure kept
  | .object fields =>
      fields.foldlM (fun draft (name, value) => nodeField draft name value) kept
  | _ => mismatch kept

def documentField (kept : Shelf Draft) (name : String) (value : JsonValue) :
    PartRead (Shelf Draft) :=
  if Text.sameName name "nodes" then array node .blank kept value else pure kept

def document : JsonValue → PartRead (List Node)
  | .null => pure []
  | .object fields => do
      let nodes ← fields.foldlM (fun kept (name, value) => documentField kept name value)
        ⟨[], []⟩
      pure (nodes.shown.map Draft.node)
  | _ => mismatch []

end JsonPart

def jsonText (graph : Graph) : Except WriteFault String :=
  graph.toJson.map JsonValue.compact

def jsonNodes : NodeReader String String := fun source =>
  match JsonValue.read? source with
  | none => .error .malformed
  | some value => (JsonPart.document value).whole.map some

def receiveJsonText (source : String) : Reception String Unit :=
  receive jsonNodes source

def ofJsonText (source : String) : Except ReadFault Graph :=
  (receiveJsonText source).fresh

end Graph

end CostTape
