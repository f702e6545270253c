import CostTape.Report.Basic

/-! Evaluators: they evaluate scripts one after the other and report on each. -/

namespace CostTape

structure Evaluator where
  /-- All sessions there are, also those of others. -/
  studio : Studio
  /-- The number of evaluations begun so far. -/
  generation : Nat
  limit : Duration
  interpreter : Evaluation.Interpreter

namespace Evaluator

def start (limit : Duration)
    (interpreter : Evaluation.Interpreter := Script.interpreter limit) : Evaluator :=
  ⟨.empty, 0, limit, interpreter⟩

/-- Evaluates a source to the end; no other evaluation is begun meanwhile. -/
def evaluate (evaluator : Evaluator) (label source : String) : Report × Evaluator :=
  let generation := evaluator.generation + 1
  let result := Evaluation.evaluate evaluator.limit evaluator.studio label source
    evaluator.interpreter
  let outcome := Evaluation.await (some result.outcome) generation generation
    evaluator.limit
  (.ofOutcome outcome, { evaluator with studio := result.studio, generation })

def evaluateAll (label : Nat → String) (evaluator : Evaluator) :
    List String → List Report × Evaluator
  | [] => ([], evaluator)
  | source :: sources =>
      let (report, next) := evaluator.evaluate (label evaluator.generation) source
      let (reports, last) := evaluateAll label next sources
      (report :: reports, last)

end Evaluator

end CostTape
