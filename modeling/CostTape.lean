import CostTape.Command.Flag
import CostTape.Command.Request
import CostTape.Command.Run
import CostTape.Command.Source
import CostTape.Decimal.Layout
import CostTape.Decimal.Reading
import CostTape.Decimal.Shortest
import CostTape.Dual.Basic
import CostTape.Dual.Operator
import CostTape.Duration
import CostTape.Evaluation.Basic
import CostTape.Evaluation.Outcome
import CostTape.Graph.Analysis
import CostTape.Graph.Basic
import CostTape.Graph.Exchange
import CostTape.Graph.JsonForm
import CostTape.Graph.Kind
import CostTape.Graph.Node
import CostTape.Graph.SlotTable
import CostTape.Graph.Validation
import CostTape.Graph.YamlForm
import CostTape.Json.Reading
import CostTape.Json.Value
import CostTape.Log
import CostTape.Main
import CostTape.Names
import CostTape.Recording.Handle
import CostTape.Recording.Operator
import CostTape.Recording.Session
import CostTape.Recording.Studio
import CostTape.Recording.Workbench
import CostTape.Report.Basic
import CostTape.Report.Evaluator
import CostTape.Report.Format
import CostTape.Report.Table
import CostTape.Script.Builtin
import CostTape.Script.CallFault
import CostTape.Script.Compilation
import CostTape.Script.Core
import CostTape.Script.Datum
import CostTape.Script.Diagnostic
import CostTape.Script.Draft
import CostTape.Script.Execution
import CostTape.Script.Form
import CostTape.Script.Instruction
import CostTape.Script.Machine
import CostTape.Script.Program
import CostTape.Script.RunFault
import CostTape.Script.Spelling
import CostTape.Script.Storage
import CostTape.Script.Token
import CostTape.Script.Value
import CostTape.Script.Vocabulary
import CostTape.Text.Blank
import CostTape.Text.CaseFold
import CostTape.Text.Glyph
import CostTape.Text.Lines
import CostTape.Text.Pen
import CostTape.Text.Printable
import CostTape.Text.Quoted
import CostTape.Text.Ranges
import CostTape.Text.Sign
import CostTape.Text.Width
import CostTape.Text.Wrap
import CostTape.Yaml.Reading
import CostTape.Yaml.Text
import CostTape.Yaml.Token
import CostTape.Yaml.Value
import CostTape.Yaml.Word
import CostTape.Proofs.Recording.Growth
import CostTape.Proofs.Dual.Growth
import CostTape.Proofs.Recording.Lifecycle
import CostTape.Proofs.Recording.Validity
import CostTape.Proofs.Recording.Refusal
import CostTape.Proofs.Trace.Execution
import CostTape.Proofs.Recording.Denotation
import CostTape.Proofs.Dual.Differentiation
import CostTape.Proofs.Recording.Calculation
import CostTape.Proofs.Recording.Operands
import CostTape.Proofs.Decimal.Rounding
import CostTape.Proofs.Decimal.Nearest
import CostTape.Proofs.Decimal.Shortest
import CostTape.Proofs.Text.Hexadecimal
import CostTape.Proofs.Decimal.Spelling
import CostTape.Proofs.Json.RoundTrip
import CostTape.Proofs.Graph.Exchange
import CostTape.Proofs.Graph.JsonExchange
import CostTape.Proofs.Graph.Reception
import CostTape.Proofs.Graph.Queries
import CostTape.Proofs.Yaml.Scan
import CostTape.Proofs.Yaml.Scalar
import CostTape.Proofs.Yaml.Block
import CostTape.Proofs.Yaml.Token
import CostTape.Proofs.Yaml.Written
import CostTape.Proofs.Yaml.RoundTrip
import CostTape.Proofs.Yaml.Number
import CostTape.Proofs.Graph.YamlExchange
import CostTape.Proofs.Dual.Recorded
import CostTape.Proofs.Script.Calls
import CostTape.Proofs.Recording.Confinement
import CostTape.Proofs.Script.Confinement
import CostTape.Proofs.Evaluation.Isolation
import CostTape.Proofs.Script.CallTree
import CostTape.Proofs.Script.Expression
import CostTape.Proofs.Graph.Advice
import CostTape.Proofs.Trace.Outputs
import CostTape.Proofs.Trace.Redundancy
import CostTape.Proofs.Trace.Unused
import CostTape.Proofs.Dual.Slots
import CostTape.Proofs.Recording.Variables
import CostTape.Proofs.Recording.Assignment
import CostTape.Proofs.Graph.Replay
import CostTape.Proofs.Recording.Materialization
import CostTape.Proofs.Dual.Layout
import CostTape.Proofs.Recording.Dimensions
import CostTape.Proofs.Script.Seams
import CostTape.Proofs.Script.Naming
import CostTape.Proofs.Trace.Usage
import CostTape.Proofs.Trace.Representatives
import CostTape.Proofs.Script.Headers
import CostTape.Proofs.Script.Keywords
import CostTape.Proofs.Command.Verdicts
