import CostTape.Command.Request
import CostTape.Command.Source
import CostTape.Log

/-! Running commands. -/

namespace CostTape

inductive CommandFault where
  | usage (fault : UsageFault)
  | unreadable (path : String) (fault : SourceFault)
  | unwritable (fault : Graph.WriteFault)
  /-- The first error of a script that was to be recorded. -/
  | script (path message : String)
  | checkFailed
deriving DecidableEq

namespace CommandFault

def message : CommandFault → String
  | usage fault => fault.message
  | unreadable path fault => "reading program: " ++ fault.message path
  | unwritable fault =>
      "json: error calling MarshalJSON for type *expr.Graph: " ++ fault.message
  | script path message => path ++ ": " ++ message
  | checkFailed => "check failed"

/-- What the user is told; one who names no command is also told of the help. -/
def notice (fault : CommandFault) : String :=
  "Error: " ++ fault.message ++ "\n" ++
    match fault with
    | usage (.unknownCommand _ _) => "Run 'exprgraph --help' for usage.\n"
    | _ => ""

end CommandFault

structure CommandOutcome where
  output : String
  log : String
  fault : Option CommandFault
deriving DecidableEq

namespace CommandOutcome

def failed (fault : CommandFault) : CommandOutcome :=
  ⟨"", "", some fault⟩

def errorOutput (outcome : CommandOutcome) : String :=
  outcome.log ++ outcome.fault.elim "" CommandFault.notice

end CommandOutcome

/-- An interpreter and a writer of YAML: those of the modules here, unless others are
given. -/
structure Toolkit where
  /-- The interpreter for a limit of time. -/
  interpreter : Duration → Evaluation.Interpreter := Script.interpreter
  yaml : YamlTree → String := (YamlLibrary.blocks 2).write

namespace Command

private def eventRecord : Evaluation.Event → LogRecord
  | .started label => ⟨.debug, "recording started", [("session", .text label)]⟩
  | .stopped label nodes =>
      ⟨.debug, "recording stopped", [("session", .text label), ("nodes", .int nodes)]⟩
  | .recorded label nodes =>
      ⟨.debug, "evaluation recorded", [("session", .text label), ("nodes", .int nodes)]⟩

/-- The last record of an evaluation; that of a script that failed has none. -/
private def endRecords : Except Evaluation.Fault Evaluation.Outcome → List LogRecord
  | .error fault => [⟨.error, "evaluate failed", [("error", .text fault.message)]⟩]
  | .ok outcome =>
      if outcome.diagnostics.isEmpty then
        let graph := outcome.graph.getD .empty
        let assessment := graph.assess
        [⟨.debug, "evaluate finished", [("nodes", .int graph.size),
          ("errors", .int assessment.flaws.length),
          ("warnings", .int assessment.advice.length)]⟩]
      else
        []

def records (path source : String) (result : Evaluation.Result) : List LogRecord :=
  let records :=
    [⟨.debug, "evaluating program", [("bytes", .int source.utf8ByteSize)]⟩] ++
    result.events.map eventRecord ++ endRecords result.outcome
  records.map fun record =>
    { record with attributes := ("file", .text path) :: record.attributes }

/-- What a command writes about a report.  A check shows the findings, and in
the structured formats no graph. -/
def written (command : Command) (format : Format) (report : Report)
    (yaml : YamlTree → String) : Except Graph.WriteFault String :=
  match command, format with
  | record, _ => report.render format yaml
  | check, .text => .ok report.findingsText
  | check, _ => { report with graph := .empty }.render format yaml

def verdict (command : Command) (path : String) (report : Report) : Option CommandFault :=
  match command with
  | record => report.errors.head?.map fun error => .script path error.message
  | check => if report.ok then none else some .checkFailed

/-- The time that evaluations may take; a setting that is not positive leaves
the usual one. -/
def limit (settings : Settings) : Duration :=
  if 0 < settings.timeout.nanoseconds then settings.timeout else Evaluation.defaultLimit

/-- Runs a command on the text of a program.  `time` is written in the log, and
`label` names the session. -/
def runOn (command : Command) (settings : Settings) (format : Format)
    (time label path source : String) (toolkit : Toolkit) : CommandOutcome :=
  let result := Evaluation.evaluate (limit settings) .empty label source
    (toolkit.interpreter (limit settings))
  let report := Report.ofOutcome result.outcome
  let logger := Logger.ofSettings settings.logLevel settings.logFormat
  let log := logger.text time (records path source result)
  match command.written format report toolkit.yaml with
  | .ok output => ⟨output, log, command.verdict path report⟩
  | .error fault => ⟨"", log, some (.unwritable fault)⟩

end Command

namespace Request

def answer (time label : String) (source : String → Except SourceFault String)
    (request : Request) (toolkit : Toolkit := {}) : CommandOutcome :=
  match request with
  | help => ⟨"", "", none⟩
  | run command settings format path =>
      match source path with
      | .ok text => command.runOn settings format time label path text toolkit
      | .error fault => .failed (.unreadable path fault)

def runLine (time label : String) (surroundings : Surroundings) (arguments : List String)
    (toolkit : Toolkit := {}) : CommandOutcome :=
  match read arguments with
  | .ok request => request.answer time label surroundings.read toolkit
  | .error fault => .failed (.usage fault)

end Request

end CostTape
