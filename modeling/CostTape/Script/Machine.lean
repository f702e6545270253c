import CostTape.Script.Builtin
import CostTape.Script.Core
import CostTape.Script.RunFault

/-! The machine that runs the code of scripts. -/

namespace CostTape.Script

structure Scope where
  bindings : Names Value
  /-- Whether a function's call made it. -/
  isFunction : Bool

/-- A place in the code of a function, with the scopes that the function sees
beyond its own. -/
structure Position where
  code : Code
  next : Nat
  captured : List Nat

/-- A function on its way over items.  Results are kept last first. -/
structure Mapping where
  name : String
  function : Closure
  pending : List Value
  results : List Value
  isList : Bool

inductive Frame where
  | caller (position : Position)
  | mapping (work : Mapping) (position : Position)

structure Machine where
  /-- All scopes that were made; the first is global. -/
  scopes : Array Scope
  /-- The scopes that are open, innermost first. -/
  opened : List Nat
  /-- The values at hand, the topmost first. -/
  stack : List Value
  frames : List Frame
  position : Position
  storage : Storage

namespace Machine

def globals : Names Value :=
  [("nil", .nil), ("null", .nil)] ++
    Builtin.all.map (fun function => (function.name, .builtin function)) ++
    CoreFunction.all.map (fun function => (function.name, .core function))

def start (code : Code) : Machine :=
  ⟨#[⟨globals, false⟩], [0], [], [], ⟨code, 0, []⟩, .empty⟩

def isFunctionScope (machine : Machine) (place : Nat) : Bool :=
  (machine.scopes[place]?).any Scope.isFunction

def splitScopes (machine : Machine) : List Nat → List Nat × List Nat
  | [] => ([], [])
  | place :: outer =>
      if machine.isFunctionScope place then ([place], outer)
      else
        let (inner, rest) := machine.splitScopes outer
        (place :: inner, rest)

/-- The scopes in which a name is looked up: those of the running function, those
that it captured, and those of the function that called it. -/
def visible (machine : Machine) : List Nat :=
  let (own, outer) := machine.splitScopes machine.opened
  own ++ machine.position.captured ++ (machine.splitScopes outer).1

def find? (machine : Machine) (name : String) : Option (Nat × Value) :=
  machine.visible.findSome? fun place =>
    ((machine.scopes[place]?).bind (·.bindings.find? name)).map fun value =>
      (place, value)

def assign (machine : Machine) (place : Nat) (name : String) (value : Value) : Machine :=
  { machine with
    scopes := machine.scopes.modify place fun scope =>
      { scope with bindings := scope.bindings.assign name value } }

def report (machine : Machine) (fault : RunFault) : RunFault :=
  match fault with
  | .exhausted => .exhausted
  | _ =>
      machine.frames.foldl (fun fault frame =>
        match frame with
        | .mapping work _ => .calling work.name fault
        | .caller _ => fault) fault

end Machine

/-- A step of the machine, which may record into a session.  What it has done before it
fails stays done. -/
abbrev Run := ExceptT RunFault (StateT Machine (StateM Session))

namespace Run

def runOn (step : Run α) (machine : Machine) (session : Session) :
    (Except RunFault α × Machine) × Session :=
  step.run machine session

def advance (steps : Nat) : Run Unit :=
  modify fun machine =>
    { machine with
      position := { machine.position with next := machine.position.next + steps } }

def jump (next : Nat) : Run Unit :=
  modify fun machine => { machine with position := { machine.position with next } }

def push (value : Value) : Run Unit :=
  modify fun machine => { machine with stack := value :: machine.stack }

def pop? : Run (Option Value) := do
  let machine ← get
  match machine.stack with
  | [] => pure none
  | value :: stack =>
      set { machine with stack }
      pure (some value)

/-- Pops a value that is needed to go on: without one the machine stays where it
is for good. -/
def pop : Run Value := do
  match ← pop? with
  | some value => pure value
  | none => throw .exhausted

def popArgs (name : String) (count : Nat) : Run (List Value) := do
  let machine ← get
  let args := machine.stack.take count
  if args.length < count then
    throw (.calling name .shortStack)
  else
    set { machine with stack := machine.stack.drop count }
    pure args.reverse

def settle (value : Value) : Run Value := do
  pure ((← get).storage.settle value)

def store (call : CoreCall Value) : Run Value := do
  let outcome ← modifyGet fun machine =>
    let storage := machine.storage
    let emptied := { machine with storage := .empty }
    let (outcome, storage) := call.run storage
    (outcome, { emptied with storage })
  match outcome with
  | .ok value => pure value
  | .error fault => throw (.inCall fault)

def record (call : RecordingCall Value) : Run Value := do
  match ← ExceptT.lift (StateT.lift call.run) with
  | .ok value => pure value
  | .error fault => throw (.inCall fault)

mutual

def quoted : Datum → Run Value
  | .literal value => pure (.literal value)
  | .symbol name inert => pure (.symbol name inert)
  | .list head tail => do
      let first ← quoted head
      let rest ← quotedAll tail
      pure (.list first rest)
  | .array items => do
      let values ← quotedAll items
      store (CoreCall.newArray values none)

def quotedAll : List Datum → Run (List Value)
  | [] => pure []
  | head :: tail => do
      let first ← quoted head
      let rest ← quotedAll tail
      pure (first :: rest)

end

def lookup (name : String) : Run Value := do
  match (← get).find? name with
  | some (_, value) => pure value
  | none => throw (.unbound name)

/-- Binds a name in the innermost scope.  A variable keeps its kind. -/
def bind (name : String) (value : Value) : Run Unit := do
  let machine ← get
  let place := machine.opened.headD 0
  let old := (machine.scopes[place]?).bind (·.bindings.find? name)
  match old.bind (fun value => (machine.storage.settle value).kind?),
      (machine.storage.settle value).kind? with
  | some target, some source =>
      if source = target then set (machine.assign place name value)
      else throw (.otherKind source target)
  | _, _ => set (machine.assign place name value)

def update (name : String) (value : Value) : Run Unit := do
  let machine ← get
  match machine.find? name with
  | some (place, _) => set (machine.assign place name value)
  | none => bind name value

def bindItems : Nat → List (Value × Value) → Run Unit
  | _, [] => pure ()
  | index, (target, value) :: rest => do
      match target with
      | .symbol name _ =>
          bind name value
          bindItems (index + 1) rest
      | other => throw (.targetItem index other)

def assign (target value : Value) : Run Unit := do
  match ← settle target, ← settle value with
  | .symbol name _, _ => bind name value
  | .array _ targets, .array _ values =>
      if targets.length = values.length then bindItems 0 (targets.zip values)
      else throw (.targetCount targets.length values.length)
  | .array place targets, source => throw (.targetSource source (.array place targets))
  | other, _ => throw (.noTarget other)

def enterScope (isFunction : Bool) : Run Unit :=
  modify fun machine =>
    let place := machine.scopes.size
    { machine with
      scopes := machine.scopes.push ⟨[], isFunction⟩
      opened := place :: machine.opened }

def gather (function : Closure) (count : Nat) : Run Unit := do
  let named := function.params.length - 1
  if count < named then
    throw (.tooFew named count)
  else
    let machine ← get
    let extra := count - named
    let items := (machine.stack.take extra).reverse
    set { machine with stack := .ofList items :: machine.stack.drop extra }

def enter (function : Closure) (count : Nat) (frame : Frame) : Run Unit := do
  modify fun machine => { machine with frames := frame :: machine.frames }
  if function.gathers then
    gather function count
  else if count ≠ function.params.length then
    throw (.wrongCount function.label function.params.length count)
  modify fun machine =>
    { machine with position := ⟨function.code, 0, function.captured⟩ }

def following : Run Position := do
  let position := (← get).position
  pure { position with next := position.next + 1 }

/-- The outcome of a function over all items: an array, whose kind is that of the
first result to have one, or a list. -/
def mapped (isList : Bool) (results : List Value) : Run Value := do
  if isList then
    pure (.ofList results)
  else
    let settled ← results.mapM settle
    store (CoreCall.newArray results (settled.findSome? Value.kind?))

def continueMapping (work : Mapping) (position : Position) : Run Unit := do
  match work.pending with
  | [] => do
      push (← mapped work.isList work.results.reverse)
      modify fun machine => { machine with position }
  | item :: pending => do
      push item
      enter work.function 1 (.mapping { work with pending } position)

def mapOver (call : List Value → Run Value) (isList : Bool)
    (items : List Value) : Run Unit := do
  let results ← items.mapM fun item => call [item]
  push (← mapped isList results)
  advance 1

def calling (name : String) (step : Run α) : Run α :=
  tryCatch step fun fault => throw (.calling name fault)

def mapItems (name : String) (function : Value) (isList : Bool) (items : List Value) :
    Run Unit :=
  match function with
  | .core function =>
      calling name
        (mapOver (fun args => store (function.apply function.name args)) isList items)
  | .builtin function =>
      calling name
        (mapOver (fun args => record (function.apply function.name args)) isList items)
  | .closure function => do
      continueMapping ⟨name, function, items, [], isList⟩ (← following)
  | value => throw (.calling name (.inCall (.mappedFunction value)))

def callMap (name : String) (args : List Value) : Run Unit :=
  match args with
  | [function, items] =>
      match function with
      | .core _ | .builtin _ | .closure _ =>
          match items with
          | .array _ items => mapItems name function false items
          | .list head tail => mapItems name function true (head :: tail)
          | value => throw (.calling name (.inCall (.mappedItems value)))
      | value => throw (.calling name (.inCall (.mappedFunction value)))
  | _ => throw (.calling name (.inCall .argumentCount))

def callCore (function : CoreFunction) (name : String) (count : Nat) : Run Unit := do
  let args ← (← popArgs name count).mapM settle
  if function = .map then
    callMap name args
  else
    push (← calling name (store (function.apply name args)))
    advance 1

def callBuiltin (function : Builtin) (name : String) (count : Nat) : Run Unit := do
  let args ← (← popArgs name count).mapM settle
  push (← calling name (record (function.apply name args)))
  advance 1

def callClosure (function : Closure) (count : Nat) : Run Unit := do
  enter function count (.caller (← following))

/-- Calls what a name stands for.  A symbol stands for what it names in turn. -/
def callNamed (name : String) (inert : Bool) (count : Nat) : Run Unit := do
  if inert then
    throw (.notFunction name)
  else
    match ← lookup name with
    | .core function => callCore function name count
    | .builtin function => callBuiltin function name count
    | .closure function => callClosure function count
    | .symbol symbol false =>
        match (← get).find? symbol with
        | none => throw (.unresolved name symbol)
        | some (_, .core function) => callCore function symbol count
        | some (_, .builtin function) => callBuiltin function symbol count
        | some (_, .closure function) => callClosure function count
        | some _ => throw (.notFunction name)
    | _ => throw (.notFunction name)

def dispatch (count : Nat) : Run Unit := do
  match ← pop with
  | .core function => callCore function function.name count
  | .builtin function => callBuiltin function function.name count
  | .closure function => callClosure function count
  | value => throw (.notApplicable (← settle value))

def leave : Run Unit := do
  let machine ← get
  match machine.frames with
  | [] => jump machine.position.code.size
  | .caller position :: frames => set { machine with position, frames }
  | .mapping work position :: frames => do
      set { machine with frames }
      let result := (← pop?).getD .nil
      continueMapping { work with results := result :: work.results } position

private def isMark (loop : Nat) : Value → Bool
  | .mark other => other == loop
  | _ => false

/-- Drops what stands above the mark of a loop.  Without the mark the machine
stays where it is for good. -/
def popToMark (loop : Nat) : Run Unit := do
  let machine ← get
  match machine.stack.dropWhile fun value => !isMark loop value with
  | [] => throw .exhausted
  | stack => set { machine with stack }

/-- Goes to a place of a loop, which is looked for in the running function. -/
def jumpInLoop (loop : Nat) (steps : Nat → Nat → Nat) : Run Unit := do
  let code := (← get).position.code
  let target := code.toList.zipIdx.findSome? fun (instruction, index) =>
    match instruction with
    | .loop number breakSteps continueSteps =>
        if number = loop then some (index + steps breakSteps continueSteps) else none
    | _ => none
  match target with
  | some next => jump next
  | none => throw (.noLoop loop)

def perform : Instruction → Run Unit
  | .push datum => do
      push (← quoted datum)
      advance 1
  | .load name => do
      push (← lookup name)
      advance 1
  | .bind name => do
      bind name (← pop)
      advance 1
  | .update name => do
      update name (← pop)
      advance 1
  | .assign => do
      advance 1
      match ← pop?, ← pop? with
      | some value, some target => assign target value
      | _, _ => pure ()
  | .pop => do
      let _ ← pop?
      advance 1
  | .copy => do
      let value ← pop
      push value
      push value
      advance 1
  | .skip steps => advance steps
  | .back steps => do
      jump ((← get).position.next - steps)
  | .branch direction steps => do
      let holds := (← pop).isTruthy
      advance (if holds == direction then steps else 1)
  | .restart => jump 1
  | .enterScope => do
      enterScope false
      advance 1
  | .enterFunction => do
      enterScope true
      advance 1
  | .leaveScope => do
      modify fun machine => { machine with opened := machine.opened.tail }
      advance 1
  | .function label params gathers code source => do
      let machine ← get
      let captured :=
        (machine.splitScopes machine.opened).1 ++ machine.position.captured
      push (.closure ⟨label, params, gathers, code, source, captured⟩)
      advance 1
  | .call name _ (some function) count => callCore function name count
  | .call name inert none count => callNamed name inert count
  | .dispatch count => dispatch count
  | .leave => leave
  | .mark loop => do
      push (.mark loop)
      advance 1
  | .popToMark loop => do
      popToMark loop
      advance 1
  | .popMark loop => do
      popToMark loop
      let _ ← pop?
      advance 1
  | .loop _ _ _ => advance 1
  | .breakLoop loop => jumpInLoop loop fun breakSteps _ => breakSteps
  | .continueLoop loop => jumpInLoop loop fun _ continueSteps => continueSteps
  | .refute condition => throw (.refuted condition)

def step : Run Bool := do
  let position := (← get).position
  match position.code[position.next]? with
  | none => pure false
  | some instruction => do
      perform instruction
      pure true

end Run

namespace Machine

def run : Nat → Machine → Session → (Except RunFault Unit × Machine) × Session
  | 0, machine, session => ((.error .exhausted, machine), session)
  | steps + 1, machine, session =>
      match Run.step.runOn machine session with
      | ((.ok true, next), after) => run steps next after
      | ((.ok false, last), after) => ((.ok (), last), after)
      | ((.error fault, last), after) => ((.error (last.report fault), last), after)

end Machine

end CostTape.Script
