import CostTape.Script.Draft

/-! Compilation: the code that the forms of a script come to. -/

namespace CostTape.Script

/-- A datum with the drafting of its code, and the parts of its items if it is
an array. -/
inductive Part where
  | mk (datum : Datum) (code : Drafting Unit) (items : Option (List Part))

namespace Part

open Drafting

def datum : Part → Datum
  | mk datum _ _ => datum

def code : Part → Drafting Unit
  | mk _ code _ => code

def items? : Part → Option (List Part)
  | mk _ _ items => items

def all (parts : List Part) : Drafting Unit :=
  parts.forM Part.code

def inTurn (tail : Bool) : List Part → Drafting Unit
  | [] => pure ()
  | [last] => do
      setTail tail
      last.code
  | head :: rest => do
      head.code
      emit .pop
      inTurn tail rest

def sequence (parts : List Part) : Drafting Unit := do
  let tail := (← get).tail
  setTail false
  inTurn tail parts

private def demandFree (name form : String) : Drafting Unit :=
  match Vocabulary.protection? name with
  | some what => reject (.protectedName what name form)
  | none => pure ()

private def targetName? : Datum → Option String
  | .symbol name _ => some name
  | .list (.symbol "quote" _) [.symbol name _] => some name
  | _ => none

def definition (make : String → Instruction) : List Part → Drafting Unit
  | [target, value] =>
      match targetName? target.datum, target.datum with
      | some name, _ => do
          demandFree name "def"
          setTail false
          value.code
          emit .copy
          emit (make name)
      | none, .list _ _ => do
          target.code
          value.code
          emit .assign
      | none, other => reject (.definitionTarget other.typeName)
  | _ => reject .definitionCount

private def paramName (part : Part) : Drafting String :=
  match part.datum.symbolName? with
  | some name => pure name
  | none => reject .functionParam

/-- The parameters of a function; an `&` before the last one says that it
gathers the arguments that are left. -/
private def gathering (names : List String) : List String × Bool :=
  match names.reverse with
  | last :: "&" :: others => ((last :: others).reverse, true)
  | _ => (names, false)

/-- A function: it binds its parameters from the last to the first, runs its
body, and leaves. -/
private def lambda (label : String) (params body : List Part) (source : Datum) :
    Drafting Unit := do
  let names ← params.mapM paramName
  let (names, gathers) := gathering names
  let code ← apart
    (fun draft => { draft with function := some label, tail := true, scopes := 0 })
    (do
      emit .enterFunction
      names.reverse.forM fun name => emit (.bind name)
      sequence body
      emit .leaveScope
      emit .leave)
  emit (.function label names gathers code source)

def function (source : Datum) : List Part → Drafting Unit
  | params :: first :: rest =>
      match params.items? with
      | some params => do
          let number ← newSymbol
          lambda s!"__anon{number}" params (first :: rest) source
      | none => reject .functionParams
  | _ => reject .malformedFunction

def functionDefinition (source : Datum) : List Part → Drafting Unit
  | target :: params :: first :: rest =>
      match params.items?, target.datum.symbolName? with
      | none, _ => reject .functionParams
      | some _, none => reject .functionName
      | some params, some name => do
          demandFree name "defn"
          lambda name params (first :: rest) source
          emit (.bind name)
          emit (.push (.literal .nil))
  | _ => reject .functionCount

private def bindings : List Part → Drafting (List (String × Part))
  | target :: value :: rest =>
      match target.datum.symbolName? with
      | some name => do
          let others ← bindings rest
          pure ((name, value) :: others)
      | none => reject .letTarget
  | _ => pure []

/-- All values come before the first binding, and the last name is bound
first. -/
def bindTogether (pairs : List (String × Part)) : Drafting Unit := do
  pairs.forM fun (_, value) => value.code
  pairs.reverse.forM fun (name, _) => emit (.bind name)

def bindInTurn (pairs : List (String × Part)) : Drafting Unit :=
  pairs.forM fun (name, value) => do
    value.code
    emit (.bind name)

def binding (bind : List (String × Part) → Drafting Unit) : List Part → Drafting Unit
  | targets :: first :: rest =>
      match targets.items? with
      | none => reject .letBindings
      | some targets => do
          if targets.length % 2 ≠ 0 then
            reject .unevenLet
          else
            let pairs ← bindings targets
            emit .enterScope
            modify fun draft => { draft with scopes := draft.scopes + 1 }
            bind pairs
            sequence (first :: rest)
            emit .leaveScope
            modify fun draft => { draft with scopes := draft.scopes - 1 }
  | _ => reject .malformedLet

/-- The clauses of `cond`.  The default is drafted first, then the clauses from
the last to the first. -/
def clauses : List Part → Drafting Code
  | test :: value :: rest => do
      let others ← clauses rest
      let condition ← apart isolated test.code
      let chosen ← apart id value.code
      pure (condition.push (.branch false (chosen.size + 2)) ++
        chosen.push (.skip (others.size + 1)) ++ others)
  | [default] => apart id default.code
  | [] => reject .noDefault

/-- The operands of `and` and `or`, drafted from the last to the first.  The
flag is the truth that decides. -/
def operands (decisive : Bool) : List Part → Drafting Code
  | [] => throw .noOperands
  | [last] => apart id (loosely last.code)
  | head :: rest => do
      let others ← operands decisive rest
      let first ← apart isolated (loosely head.code)
      pure (first ++ #[.copy, .branch decisive (others.size + 2), .pop] ++ others)

private def loopParts : List Part → Drafting (List Part × Option String × List Part)
  | control :: first :: rest =>
      match control.items?, targetName? control.datum with
      | some items, _ => pure (items, none, first :: rest)
      | none, some label =>
          match first.items? with
          | some items => pure (items, some label, rest)
          | none => reject .labelledLoopControl
      | none, none => reject .loopControl
  | _ => reject .malformedLoop

/-- `for`: the body is drafted first.  The loop clears the stack down to its own
mark after each of its parts. -/
def loop (parts : List Part) : Drafting Unit := do
  if parts.length < 2 then
    reject .malformedLoop
  else
    let number ← newSymbol
    match ← loopParts parts with
    | ([init, test, advance], label, body) => do
        let outer := (← get).loops
        modify fun draft => { draft with loops := ⟨number, label⟩ :: draft.loops }
        let body ← apart id (sequence body)
        let init ← apart id init.code
        let test ← apart id test.code
        let advance ← apart id advance.code
        modify fun draft => { draft with loops := outer }
        let body := body.push (.popToMark number)
        let init := init.push (.popToMark number)
        let advance := advance.push (.popToMark number)
        let advanceAt := init.size + 4
        let testAt := advanceAt + advance.size
        let bodyAt := testAt + test.size + 1
        let endAt := bodyAt + body.size + 1
        emitAll (#[.loop number endAt advanceAt, .mark number, .enterScope] ++ init ++
          #[.skip (advance.size + 1)] ++ advance ++ test ++
          #[.branch false (body.size + 2)] ++ body ++
          #[.back (endAt - 1 - advanceAt), .popMark number, .leaveScope,
            .push (.literal .nil)])
    | _ => reject .loopControlSize

def leaveLoop (form : String) (make : Nat → Instruction) (parts : List Part) :
    Drafting Unit := do
  let loops := (← get).loops
  match loops, parts with
  | [], _ => reject (.outsideLoop form)
  | inner :: _, [] => emit (make inner.number)
  | _, label :: _ =>
      let name := (targetName? label.datum).getD label.datum.print
      match loops.find? fun loop => loop.label == some name with
      | some loop => emit (make loop.number)
      | none => reject (.unknownLoop form name)

def inScope (parts : List Part) : Drafting Unit := do
  if parts.isEmpty then
    setTail false
  else
    emit .enterScope
    sequence parts
    emit .leaveScope

def assertion : List Part → Drafting Unit
  | [condition] => do
      condition.code
      emit (.branch true 2)
      emit (.refute condition.datum)
      emit (.push (.literal .nil))
  | _ => reject .assertionCount

/-- A call by name.  A function's call of itself, where its value is taken for
that of the function, leaves the scopes inside of it and starts it again. -/
def call (name : String) (inert : Bool) (args : List Part) : Drafting Unit := do
  let tail := (← get).tail
  setTail false
  all args
  let draft ← get
  if tail ∧ draft.function = some name then
    emitAll ((Array.replicate draft.scopes .leaveScope).push .restart)
  else
    emit (.call name inert (CoreFunction.ofName? name) args.length)
  setTail tail

def dispatch (head : Part) (args : List Part) : Drafting Unit := do
  loosely (all args)
  loosely head.code
  emit (.dispatch args.length)

def list (source : Datum) (head : Part) (tail : List Part) : Drafting Unit :=
  match head.datum with
  | .symbol "def" _ => definition .bind tail
  | .symbol "set" _ => definition .update tail
  | .symbol "fn" _ => function source tail
  | .symbol "defn" _ => functionDefinition source tail
  | .symbol "begin" _ => sequence tail
  | .symbol "let" _ => binding bindTogether tail
  | .symbol "letseq" _ => binding bindInTurn tail
  | .symbol "cond" _ =>
      if tail.length % 2 = 0 then reject .noDefault else clauses tail >>= emitAll
  | .symbol "and" _ => operands false tail >>= emitAll
  | .symbol "or" _ => operands true tail >>= emitAll
  | .symbol "for" _ => loop tail
  | .symbol "break" _ => leaveLoop "break" .breakLoop tail
  | .symbol "continue" _ => leaveLoop "continue" .continueLoop tail
  | .symbol "newScope" _ => inScope tail
  | .symbol "assert" _ => assertion tail
  | .symbol "quote" _ | .symbol "syntaxQuote" _ =>
      tail.forM fun part => emit (.push part.datum)
  | .symbol name inert => call name inert tail
  | _ => dispatch head tail

mutual

def ofDatum : Datum → Part
  | .literal value => mk (.literal value) (emit (.push (.literal value))) none
  | .symbol name inert =>
      mk (.symbol name inert)
        (emit (if inert then .push (.symbol name inert) else .load name)) none
  | .array items =>
      let parts := ofData items
      mk (.array items)
        (do
          all parts
          emit (.call "array" false (some .array) parts.length))
        (some parts)
  | .list head tail =>
      let first := ofDatum head
      let rest := ofData tail
      mk (.list head tail)
        (tryCatch (list (.list head tail) first rest) fun fault =>
          throw (fault.inside (.list head tail)))
        none

def ofData : List Datum → List Part
  | [] => []
  | head :: tail => ofDatum head :: ofData tail

end

end Part

/-- The code of a program.  Symbols are numbered in the order in which they turn
up, and `known` of them before it. -/
def Program.compile (program : List Datum) (nextSymbol : Nat) : Except FormFault Code :=
  let (outcome, draft) :=
    (Part.sequence (Part.ofData program)).run (Draft.start nextSymbol)
  outcome.map fun () => draft.code

end CostTape.Script
