import CostTape.Evaluation.Outcome
import CostTape.Script.Compilation
import CostTape.Script.Machine
import CostTape.Script.Program

/-! Execution of a script's text in a session. -/

namespace CostTape.Script

inductive ScriptFault where
  | read (fault : ReadFault)
  | form (around : List Datum) (problem : FormProblem)
  /-- The compilation of its forms breaks down. -/
  | noOperands

def ScriptFault.ending : ScriptFault → Evaluation.Ending
  | read fault => .failed fault.message
  | form around problem => .failed (FormFault.rejectedMessage around problem)
  | noOperands => .broken "runtime error: index out of range [-1]"

def givenNames : List String :=
  Builtin.all.map Builtin.name

/-- The number of the first symbol that is new to scripts; they count from
one. -/
def firstSymbol : Nat :=
  Vocabulary.size givenNames + 1

def nextSymbol (program : List Datum) : Nat :=
  let new := (Datum.namesAll program).filter fun name =>
    !Vocabulary.isKnown givenNames name
  firstSymbol + new.eraseDups.length

def programCode (program : List Datum) : Except ScriptFault Code :=
  match Program.compile program (nextSymbol program) with
  | .ok code => .ok code
  | .error (.rejected around problem) => .error (.form around problem)
  | .error .noOperands => .error .noOperands

def code (text : String) : Except ScriptFault Code :=
  match Program.read text with
  | .error fault => .error (.read fault)
  | .ok program => programCode program

def execute (steps : Nat) : Evaluation.Interpreter := fun text => do
  match code text with
  | .error fault => pure (some fault.ending)
  | .ok code =>
      let (outcome, _) ← (Machine.start code).run steps
      match outcome with
      | .ok () => pure (some .done)
      | .error .exhausted => pure none
      | .error fault => pure (some (.failed fault.message))

/-- The interpreter of the modules here.  It has no clock: a step counts for a quarter of
a microsecond. -/
def interpreter (limit : Duration) : Evaluation.Interpreter :=
  execute (limit.nanoseconds.toNat / 250)

end CostTape.Script
