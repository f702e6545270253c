import CostTape.Script.Datum
import CostTape.Script.Vocabulary

/-! Instructions: what the forms of a script come to.  They work on a stack of
values and a stack of scopes. -/

namespace CostTape.Script

/-- Steps count from the instruction that takes them. -/
inductive Instruction where
  /-- Pushes a datum as it is. -/
  | push (datum : Datum)
  /-- Pushes the value of a variable. -/
  | load (name : String)
  /-- Pops a value and binds it in the innermost scope. -/
  | bind (name : String)
  /-- Pops a value and gives it to the nearest variable of the name. -/
  | update (name : String)
  /-- Pops a value and a target, and assigns the one to the other. -/
  | assign
  | pop
  /-- Pushes the topmost value once more. -/
  | copy
  | skip (steps : Nat)
  | back (steps : Nat)
  /-- Pops a value and skips if it holds, or does not, as the flag says. -/
  | branch (direction : Bool) (steps : Nat)
  /-- Goes to where a running function binds its parameters. -/
  | restart
  | enterScope
  | enterFunction
  | leaveScope
  /-- Pushes a function with the scopes that it sees. -/
  | function (label : String) (params : List String) (gathers : Bool)
      (code : Array Instruction) (source : Datum)
  /-- The flag says that the name stands for itself. -/
  | call (name : String) (inert : Bool) (core : Option CoreFunction) (count : Nat)
  /-- Pops what is called, which stands above its arguments. -/
  | dispatch (count : Nat)
  | leave
  /-- Pushes the mark of a loop. -/
  | mark (loop : Nat)
  | popToMark (loop : Nat)
  | popMark (loop : Nat)
  /-- Where a loop starts, and how far from here it ends and goes on. -/
  | loop (loop breakSteps continueSteps : Nat)
  | breakLoop (loop : Nat)
  | continueLoop (loop : Nat)
  /-- Stops because a condition does not hold. -/
  | refute (condition : Datum)

instance : Inhabited Instruction := ⟨.pop⟩

abbrev Code := Array Instruction

end CostTape.Script
