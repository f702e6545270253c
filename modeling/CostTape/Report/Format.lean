import CostTape.Graph.JsonForm
import CostTape.Graph.YamlForm
import CostTape.Report.Basic
import CostTape.Report.Table
import CostTape.Text.Quoted

/-! Reports as text, JSON and YAML. -/

namespace CostTape

inductive Format where
  | text
  | json
  | yaml
deriving DecidableEq

namespace Format

def ofName? (name : String) : Option Format :=
  match name with
  | "text" => some text
  | "json" => some json
  | "yaml" => some yaml
  | _ => none

def unknownMessage (name : String) : String :=
  "unknown format " ++ Text.quoted name ++ " (want text, json or yaml)"

end Format

namespace Report

private def paragraph (lines : List String) : String :=
  String.join (lines.map (· ++ "\n"))

private def evenParagraph (text : String) : String :=
  paragraph ((Text.evenLines text).map String.ofList)

/-- A line number that is not known is left out. -/
def errorText (error : Diagnostic) : String :=
  "✗ " ++ (if 0 < error.line then s!"line {error.line}: " else "") ++ error.message

def findingText (remark : Remark) : String :=
  (if remark.isError then "✗" else "⚠") ++ " [" ++ remark.severity ++ "] " ++
    remark.node.text ++ ": " ++ remark.message

def summaryText (report : Report) : String :=
  (if report.ok then "✓" else "✗") ++
    s!" {report.graph.nodes.size} nodes, {report.errors.length} errors, " ++
    s!"{report.findings.length} findings"

def findingsText (report : Report) : String :=
  String.join (report.errors.map fun error => evenParagraph (errorText error)) ++
    String.join (report.findings.map fun remark => evenParagraph (findingText remark)) ++
    paragraph [report.summaryText]

def table (graph : Graph) : Table where
  headings := ["ID", "KIND", "TARGET", "EXPRESSION"]
  rows := graph.nodes.toList.map fun node =>
    [node.id.text, node.kind.name, NodeId.text node.target, node.text]

def text (report : Report) : String :=
  (if report.graph.nodes.isEmpty then "" else paragraph (table report.graph).lines) ++
    report.findingsText

def toJson (report : Report) : Except Graph.WriteFault JsonValue := do
  let graph ← report.graph.toJson
  pure (.object [
    ("graph", graph),
    ("errors", .array (report.errors.map fun error =>
      .object [("line", .int error.line), ("col", .int error.column),
        ("message", .text error.message)])),
    ("findings", .array (report.findings.map fun remark =>
      .object [("node", .int remark.node), ("severity", .text remark.severity),
        ("message", .text remark.message)]))])

def toYaml (report : Report) : Except Graph.WriteFault YamlTree := do
  let graph ← report.graph.toYaml
  pure (.record [
    ("graph", graph),
    ("errors", .list (report.errors.map fun error =>
      .record [("line", .int error.line), ("col", .int error.column),
        ("message", .text error.message)])),
    ("findings", .list (report.findings.map fun remark =>
      .record [("node", .int remark.node), ("severity", .text remark.severity),
        ("message", .text remark.message)]))])

/-- The report in a format; YAML is indented by two, unless it is written otherwise. -/
def render (report : Report) (format : Format)
    (yaml : YamlTree → String := (YamlLibrary.blocks 2).write) :
    Except Graph.WriteFault String :=
  match format with
  | .text => .ok report.text
  | .json => report.toJson.map fun value => value.indented 0 ++ "\n"
  | .yaml => report.toYaml.map yaml

end Report

end CostTape
