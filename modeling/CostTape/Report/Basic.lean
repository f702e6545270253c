import CostTape.Evaluation.Basic
import CostTape.Graph.Analysis

/-! Reports: what an evaluation recorded, what failed, and what was found. -/

namespace CostTape

structure Remark where
  node : NodeId
  severity : String
  message : String
deriving DecidableEq

def Finding.remark (finding : Finding) : Remark :=
  ⟨finding.node, finding.severity.name, finding.message⟩

def Remark.isError (remark : Remark) : Bool :=
  remark.severity == Severity.error.name

structure Report where
  graph : Graph
  errors : List Diagnostic
  findings : List Remark
deriving DecidableEq

namespace Report

/-- Nothing failed, and no finding is an error. -/
def ok (report : Report) : Bool :=
  report.errors.isEmpty && !report.findings.any Remark.isError

def failed (errors : List Diagnostic) : Report :=
  ⟨.empty, errors, []⟩

def recorded (graph : Graph) : Report :=
  ⟨graph, [], graph.assess.findings.map Finding.remark⟩

def ofOutcome : Except Evaluation.Fault Evaluation.Outcome → Report
  | .error fault => failed [⟨0, 0, fault.message⟩]
  | .ok outcome =>
      if outcome.diagnostics.isEmpty then
        recorded (outcome.graph.getD .empty)
      else
        failed outcome.diagnostics

end Report

end CostTape
