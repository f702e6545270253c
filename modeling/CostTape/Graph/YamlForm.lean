import CostTape.Graph.Exchange
import CostTape.Yaml.Tree

/-! Graphs as YAML. -/

namespace CostTape

namespace YamlTree

variable {Text : Type}

/-- Numbers are written as in the text of a node, but with the words of YAML
for those that are not finite. -/
def numberLayout : NumberLayout :=
  { NumberLayout.trace with
    notANumber := ".nan"
    infinity := ".inf"
    negativeInfinity := "-.inf" }

def int (value : Int) : YamlTree Text :=
  .word (toString value)

def float (value : Float) : YamlTree Text :=
  .word (numberLayout.text value)

def record [SymbolType Text] (fields : List (String × YamlTree Text)) : YamlTree Text :=
  .mapping (fields.map fun (name, value) => (.text (SymbolType.ofText name), value))

def isNull : YamlTree Text → Bool
  | word body => YamlWord.ofWord body == .null
  | _ => false

/-- The key under which a mapping takes over the entries of others. -/
def isMerge : YamlTree Text → Bool
  | word body => body == "<<"
  | _ => false

end YamlTree

variable {Symbol : Type} [DecidableEq Symbol] [SymbolType Symbol]

namespace Node

def toYaml (node : Node Symbol) : Except Graph.WriteFault (YamlTree Symbol) := do
  let kind ← node.writtenKind
  pure (.record (
    [("id", .int node.id), ("kind", .text (SymbolType.ofText kind)),
      ("target", .int node.target)] ++
      (if node.value == 0.0 then [] else [("value", .float node.value)]) ++
      (if node.symbol == SymbolType.ofText "" then [] else
        [("symbol", .text node.symbol)]) ++
      if node.args.isEmpty then [] else [("args", .list (node.args.map .int))]))

end Node

namespace Graph

def toYaml (graph : Graph Symbol) : Except WriteFault (YamlTree Symbol) := do
  let nodes ← graph.nodes.toList.mapM Node.toYaml
  pure (.record [("nodes", .list nodes)])

namespace YamlPart

open PartRead

/-- A number without its fraction; below the range of 64 bits, and at its upper
end, it is the least integer. -/
def truncated? (value : Float) : Option Int :=
  let limit : Float := 9223372036854775808.0
  if value.isNaN || limit < value then none
  else if value < -limit || limit ≤ value then some (-0x8000000000000000)
  else some value.toInt64.toInt

/-- The mark of a merge stands for nothing but a key. -/
def meaning (body : String) : PartRead YamlWord :=
  if body == "<<" then throw .malformed else pure (YamlWord.ofWord body)

def int (kept : Int) : YamlTree Symbol → PartRead Int
  | .word body => do
      match ← meaning body with
      | .null => pure kept
      | .int value => take kept (if value < 0x8000000000000000 then some value else none)
      | .float value => take kept (truncated? value)
      | _ => mismatch kept
  | _ => mismatch kept

def float (kept : Float) : YamlTree Symbol → PartRead Float
  | .word body => do
      match ← meaning body with
      | .null => pure kept
      | .int value => pure (.ofInt value)
      | .float value => pure value
      | _ => mismatch kept
  | _ => mismatch kept

def text (kept : Symbol) : YamlTree Symbol → PartRead Symbol
  | .word body => do
      pure (if (← meaning body) == .null then kept else SymbolType.ofText body)
  | .text body => pure body
  | _ => mismatch kept

def kind (kept : Kind) : YamlTree Symbol → PartRead Kind
  | .word body => do
      if (← meaning body) == .null then pure kept else kindNamed body
  | .text body =>
      match SymbolType.text? body with
      | some name => kindNamed name
      | none => throw .malformed
  | _ => mismatch kept

def list (item : YamlTree Symbol → PartRead α) : YamlTree Symbol → PartRead (List α)
  | .list items => (items.filter (!·.isNull)).mapM item
  | .word body => do
      if (← meaning body) == .null then pure [] else mismatch []
  | _ => mismatch []

/-- Keys are the same if they are written with the same characters, or are
both lists or both mappings. -/
def sameKey : YamlTree Symbol → YamlTree Symbol → Bool
  | .word first, .word second => first == second
  | .word first, .text second => SymbolType.ofText first == second
  | .text first, .word second => first == SymbolType.ofText second
  | .text first, .text second => first == second
  | .list _, .list _ => true
  | .mapping _, .mapping _ => true
  | _, _ => false

def repeatsKey : List (YamlTree Symbol × YamlTree Symbol) → Bool
  | [] => false
  | (key, _) :: entries =>
      entries.any (fun (other, _) => sameKey key other) || repeatsKey entries

structure Entries (Symbol : Type) where
  listed : List (YamlTree Symbol × YamlTree Symbol)
  /-- Some mapping repeats a key, so that its entries are passed over. -/
  repeated : Bool := false
  /-- What comes after these entries cannot be taken over. -/
  broken : Bool := false

/-- Takes over the entries of others; a key that is there stays as it is. -/
def Entries.extend (entries others : Entries Symbol) : Entries Symbol :=
  let added := others.listed.filter fun (key, _) =>
    !entries.listed.any fun (other, _) => sameKey key other
  ⟨entries.listed ++ added, entries.repeated || others.repeated,
    entries.broken || others.broken⟩

mutual

def entries : YamlTree Symbol → Entries Symbol
  | .mapping own =>
      if repeatsKey own then ⟨[], true, false⟩
      else Entries.extend ⟨own.filter (!·.1.isMerge), false, false⟩ (mergedEntries own)
  | _ => ⟨[], false, true⟩

/-- The entries under the merge key, which has one mapping or a list of them. -/
def mergedEntries : List (YamlTree Symbol × YamlTree Symbol) → Entries Symbol
  | [] => ⟨[], false, false⟩
  | (key, .list items) :: rest =>
      if key.isMerge then itemEntries items else mergedEntries rest
  | (key, value) :: rest =>
      if key.isMerge then entries value else mergedEntries rest

def itemEntries : List (YamlTree Symbol) → Entries Symbol
  | [] => ⟨[], false, false⟩
  | item :: items =>
      let first := entries item
      if first.broken then first else first.extend (itemEntries items)

end

def entry (field : α → String → YamlTree Symbol → PartRead α) (kept : α) :
    YamlTree Symbol × YamlTree Symbol → PartRead α
  | (.word name, value) =>
      if YamlWord.ofWord name == .null then pure kept else field kept name value
  | (.text name, value) =>
      match SymbolType.text? name with
      | some name => field kept name value
      | none => pure kept
  | _ => mismatch kept

def record (field : α → String → YamlTree Symbol → PartRead α) (blank : α) :
    YamlTree Symbol → PartRead α
  | .mapping own => do
      let found := entries (.mapping own)
      let kept ← found.listed.foldlM (entry field) blank
      if found.broken then throw .malformed
      else if found.repeated then mismatch kept
      else pure kept
  | .word body => do
      if (← meaning body) == .null then pure blank else mismatch blank
  | _ => mismatch blank

def nodeField (node : Node Symbol) (name : String) (value : YamlTree Symbol) :
    PartRead (Node Symbol) := do
  match name with
  | "id" => pure { node with id := ← int node.id value }
  | "kind" => pure { node with kind := ← kind node.kind value }
  | "target" => pure { node with target := ← int node.target value }
  | "value" => pure { node with value := ← float node.value value }
  | "symbol" => pure { node with symbol := ← text node.symbol value }
  | "args" => pure { node with args := ← list (int 0) value }
  | _ => pure node

def node (value : YamlTree Symbol) : PartRead (Node Symbol) :=
  record nodeField (.zero Symbol) value

def document (value : YamlTree Symbol) : PartRead (List (Node Symbol)) :=
  record (fun kept name value =>
    if name == "nodes" then list node value else pure kept) [] value

end YamlPart

variable {Document : Type}

def yamlNodes (library : YamlLibrary Symbol Document) : NodeReader Symbol Document :=
  fun document =>
    match library.read? document with
    | none => .error .malformed
    | some tree =>
        if tree.isNull then .ok none else (YamlPart.document tree).whole.map some

def writeYaml (library : YamlLibrary Symbol Document) (graph : Graph Symbol) :
    Except WriteFault Document :=
  graph.toYaml.map library.write

def ofYaml (library : YamlLibrary Symbol Document) (document : Document) :
    Except ReadFault (Graph Symbol) :=
  (receive (yamlNodes library) document).fresh

def yamlText (graph : Graph) : Except WriteFault String :=
  graph.writeYaml (.blocks 4)

def ofYamlText (source : String) : Except ReadFault Graph :=
  ofYaml (.blocks 4) source

end Graph

end CostTape
