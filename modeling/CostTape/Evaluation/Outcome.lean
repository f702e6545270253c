import CostTape.Duration
import CostTape.Graph.Basic
import CostTape.Recording.Session
import CostTape.Script.Diagnostic

/-! What an evaluation comes to, and how long its caller waits for it. -/

namespace CostTape

namespace Evaluation

inductive Ending where
  | done
  | failed (message : String)
  /-- The interpreter itself breaks down. -/
  | broken (message : String)
deriving DecidableEq

/-- An interpreter runs the text of a script, which records into a session, and keeps
nothing from one script to the next.  There is no ending if it does not come back while
its caller waits. -/
abbrev Interpreter := String → StateM Session (Option Ending)

structure Outcome where
  graph : Option Graph
  diagnostics : List Diagnostic
deriving DecidableEq

inductive Fault where
  | timedOut (limit : Duration)
  | superseded (generation latest : Nat)
  | session (fault : RecordingFault)
  | broken (text : String)
  | other (text : String)
deriving DecidableEq

def Fault.message : Fault → String
  | .timedOut limit => "evaluation timed out after " ++ limit.text
  | .superseded generation latest =>
      s!"evaluation superseded by newer request (generation {generation}, latest {latest})"
  | .session fault => fault.message
  | .broken text => "panic during evaluation: " ++ text
  | .other text => text

def defaultLimit : Duration :=
  ⟨5000000000⟩

/-- Takes the result of one generation.  A result that is not there counts as
timed out, and one of another generation than the latest is dropped, whatever
it says. -/
def await (result : Option (Except Fault Outcome)) (generation latest : Nat)
    (limit : Duration) : Except Fault Outcome :=
  match result with
  | none => .error (.timedOut limit)
  | some result =>
      if generation = latest then result else .error (.superseded generation latest)

end Evaluation

end CostTape
