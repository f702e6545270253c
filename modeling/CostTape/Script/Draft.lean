import CostTape.Script.Form
import CostTape.Script.Instruction

/-! Drafts: code in the making. -/

namespace CostTape.Script

structure OpenLoop where
  number : Nat
  label : Option String

/-- The code so far, and where the next form stands: in which function, whether
its value is taken for that of the function, and in how many scopes inside of
it. -/
structure Draft where
  function : Option String
  tail : Bool
  scopes : Nat
  code : Code
  /-- The number that the next new symbol gets. -/
  nextSymbol : Nat
  loops : List OpenLoop

namespace Draft

def start (nextSymbol : Nat) : Draft :=
  ⟨none, false, 0, #[], nextSymbol, []⟩

end Draft

/-- A form that is rejected leaves the code that came before it. -/
abbrev Drafting := ExceptT FormFault (StateM Draft)

namespace Drafting

def reject (problem : FormProblem) : Drafting α :=
  throw (.rejected [] problem)

def emit (instruction : Instruction) : Drafting Unit :=
  modify fun draft => { draft with code := draft.code.push instruction }

def emitAll (code : Code) : Drafting Unit :=
  modify fun draft => { draft with code := draft.code ++ code }

def setTail (tail : Bool) : Drafting Unit :=
  modify fun draft => { draft with tail }

def newSymbol : Drafting Nat := do
  let draft ← get
  set { draft with nextSymbol := draft.nextSymbol + 1 }
  pure draft.nextSymbol

/-- Drafts code of its own, at a place that `setting` derives from the present
one. -/
def apart (setting : Draft → Draft) (form : Drafting Unit) : Drafting Code := do
  let outer ← get
  set { setting outer with code := #[] }
  let outcome ← ExceptT.lift form.run
  let inner ← get
  set { outer with nextSymbol := inner.nextSymbol }
  match outcome with
  | .ok () => pure inner.code
  | .error fault => throw fault

def loosely (form : Drafting Unit) : Drafting Unit :=
  tryCatch form fun
    | .rejected _ _ => pure ()
    | .noOperands => throw .noOperands

/-- A form whose value is not taken for that of the function. -/
def isolated (draft : Draft) : Draft :=
  { draft with tail := false, scopes := 0 }

end Drafting

end CostTape.Script
