import CostTape.Evaluation.Outcome
import CostTape.Recording.Studio
import CostTape.Script.Execution

/-! Evaluations: each runs one script in a session of its own. -/

namespace CostTape

namespace Evaluation

inductive Event where
  | started (label : String)
  | stopped (label : String) (nodes : Nat)
  | recorded (label : String) (nodes : Nat)
deriving DecidableEq

structure Result where
  outcome : Except Fault Outcome
  studio : Studio
  events : List Event

def isBlank (source : String) : Bool :=
  source.toList.all Text.isBlank

def outcomeOf (graph : Graph) : Ending → Except Fault Outcome
  | .done => .ok ⟨some graph, []⟩
  | .failed message => .ok ⟨none, [.ofText message]⟩
  | .broken message => .error (.broken message)

/-- Evaluates a script, for which its caller waits up to `limit`.  At its end its session
is stopped, and the graph counts only if the script succeeds.  A script that is not at its
end keeps its session. -/
def evaluate (limit : Duration) (studio : Studio) (label source : String)
    (interpreter : Interpreter := Script.interpreter limit) : Result :=
  if isBlank source then
    ⟨.ok ⟨some Graph.empty.freeze, []⟩, studio, []⟩
  else
    match studio.start label with
    | .error fault => ⟨.error (.session fault), studio, []⟩
    | .ok (place, started) =>
        match started.runStep (some place) (interpreter (Spelling.respell source)) with
        | (none, recorded) => ⟨.error (.timedOut limit), recorded, [.started label]⟩
        | (some ending, recorded) =>
            match recorded.stop (some place) with
            | .error fault => ⟨.error (.session fault), recorded, [.started label]⟩
            | .ok (graph, stopped) =>
                ⟨outcomeOf graph ending, stopped,
                  [.started label, .stopped label graph.size] ++
                    if ending = .done then [.recorded label graph.size] else []⟩

end Evaluation

end CostTape
