import CostTape.Proofs.Script.Calls
import CostTape.Script.Execution

/-! Trees of calls: a script of nested calls of the recording functions comes to calling
them from the inside out and from left to right. -/

namespace CostTape.Script

open Interpretation

/-- Literals and calls of recording functions. -/
inductive CallTree where
  | literal (value : Literal)
  | call (function : Builtin) (args : List CallTree)

namespace CallTree

mutual

def datum : CallTree → Datum
  | literal value => .literal value
  | call function args => .list (.named function.name) (data args)

def data : List CallTree → List Datum
  | [] => []
  | head :: tail => head.datum :: data tail

end

mutual

def code : CallTree → List Instruction
  | literal value => [.push (.literal value)]
  | call function args => codeAll args ++ [.call function.name false none args.length]

def codeAll : List CallTree → List Instruction
  | [] => []
  | head :: tail => head.code ++ codeAll tail

end

mutual

def evaluate : CallTree → RecordingCall Value
  | literal value => pure (.literal value)
  | call function args => do
      let values ← evaluateAll args
      function.apply function.name values

def evaluateAll : List CallTree → RecordingCall (List Value)
  | [] => pure []
  | head :: tail => do
      let first ← head.evaluate
      let rest ← evaluateAll tail
      pure (first :: rest)

end

theorem length_data (trees : List CallTree) : (data trees).length = trees.length := by
  induction trees with
  | nil => rfl
  | cons head tail induction => exact congrArg Nat.succ induction

end CallTree

namespace Drafting

theorem run_bind_of_ok {step : Drafting α} {next : α → Drafting β} {draft middle : Draft}
    {value : α} (ran : step.run draft = (.ok value, middle)) :
    (step >>= next).run draft = (next value).run middle := by
  simp only [ExceptT.run_bind]
  simp only [bind, StateT.bind]
  rw [ran]

theorem run_tryCatch_of_ok {step : Drafting α} (handler : FormFault → Drafting α)
    {draft middle : Draft} {value : α} (ran : step.run draft = (.ok value, middle)) :
    (tryCatch step handler).run draft = (.ok value, middle) := by
  show (ExceptT.tryCatch step handler).run draft = _
  simp only [ExceptT.tryCatch, ExceptT.run_mk]
  simp only [bind, StateT.bind]
  rw [show step draft = _ from ran]
  rfl

end Drafting

namespace CallTree

open Drafting

theorem list_eq_call (source : Datum) (head : Part) (tail : List Part)
    (function : Builtin) (names : head.datum = .named function.name) :
    Part.list source head tail = Part.call function.name false tail := by
  unfold Part.list
  rw [names]
  cases function with
  | unary operator => cases operator <;> rfl
  | binary operator => cases operator <;> rfl
  | _ => rfl

theorem ofName?_name (function : Builtin) :
    CoreFunction.ofName? function.name = none := by
  cases function with
  | unary operator => cases operator <;> decide
  | binary operator => cases operator <;> decide
  | _ => decide

/-- Outside of functions the form drafts the code, and leaves all else as it was. -/
def Drafts (form : Drafting Unit) (code : List Instruction) : Prop :=
  ∀ draft : Draft, draft.function = none →
    form.run draft = (.ok (), { draft with code := draft.code ++ code.toArray })

theorem drafts_call (function : Builtin) {args : List Part} {code : List Instruction}
    (drafts : Drafts (Part.all args) code) :
    Drafts (Part.call function.name false args)
      (code ++ [.call function.name false none args.length]) := by
  intro draft outside
  have drafted := drafts { draft with tail := false } outside
  unfold Part.call
  rw [run_bind_of_ok (show (get : Drafting Draft).run draft =
    (.ok draft, draft) from rfl)]
  simp only
  rw [run_bind_of_ok (show (setTail false).run draft = (.ok (), _) from rfl),
    run_bind_of_ok drafted]
  rw [run_bind_of_ok (show (get : Drafting Draft).run _ = (.ok _, _) from rfl)]
  simp only
  rw [if_neg (by simp [outside]), ofName?_name]
  have appended : (draft.code ++ code.toArray).push
      (Instruction.call function.name false none args.length) =
      draft.code ++
        (code ++ [Instruction.call function.name false none args.length]).toArray := by
    simp
  rw [← appended]
  rfl

theorem length_ofData (data : List Datum) : (Part.ofData data).length = data.length := by
  induction data with
  | nil => rfl
  | cons head tail induction => exact congrArg Nat.succ induction

mutual

theorem drafts_code : (tree : CallTree) → Drafts (Part.ofDatum tree.datum).code tree.code
  | literal value => fun draft _ => by
      have appended : draft.code.push (.push (.literal value)) =
          draft.code ++ (literal value).code.toArray := by
        simp [code]
      rw [← appended]
      rfl
  | call function args => fun draft outside => by
      simp only [datum, Part.ofDatum]
      refine run_tryCatch_of_ok _ ?_
      rw [list_eq_call _ _ _ function rfl, code, ← length_data args, ← length_ofData]
      exact drafts_call function (drafts_codeAll args) draft outside

theorem drafts_codeAll : (trees : List CallTree) →
    Drafts (Part.all (Part.ofData (data trees))) (codeAll trees)
  | [] => fun draft _ => by
      simp only [codeAll, Array.append_empty]
      rfl
  | head :: tail => fun draft outside => by
      have first := drafts_code head draft outside
      have rest := drafts_codeAll tail
        { draft with code := draft.code ++ head.code.toArray } outside
      have appended : draft.code ++ (codeAll (head :: tail)).toArray =
          draft.code ++ head.code.toArray ++ (codeAll tail).toArray := by
        simp [codeAll]
      rw [appended]
      exact (run_bind_of_ok first).trans rest

end

theorem compile_datum (tree : CallTree) (nextSymbol : Nat) :
    Program.compile [tree.datum] nextSymbol = .ok tree.code.toArray := by
  have drafted := drafts_code tree (Draft.start nextSymbol) rfl
  have sequenced : (Part.sequence (Part.ofData [tree.datum])).run
      (Draft.start nextSymbol) =
      (Part.ofDatum tree.datum).code.run (Draft.start nextSymbol) := rfl
  rw [Program.compile, sequenced, drafted]
  exact congrArg Except.ok Array.empty_append

theorem programCode_datum (tree : CallTree) :
    programCode [tree.datum] = .ok tree.code.toArray := by
  rw [programCode, compile_datum]

end CallTree

/-- A recorded expression, or a literal. -/
inductive Value.IsGiven (graph : Graph) : Value → Prop
  | literal (value : Literal) : IsGiven graph (.literal value)
  | expression {value : Value} (recorded : value.IsRecorded graph) : IsGiven graph value

namespace Value.IsGiven

variable {graph later : Graph} {value : Value}

theorem mono (size_le : graph.size ≤ later.size) (given : value.IsGiven graph) :
    value.IsGiven later := by
  cases given with
  | literal value => exact .literal value
  | expression recorded => exact .expression (recorded.mono size_le)

theorem isSound (given : value.IsGiven graph) : value.IsSound graph := by
  cases given with
  | literal value => exact fun expression => nomatch expression
  | expression recorded => exact fun _ => recorded

theorem settle_eq (storage : Storage) (given : value.IsGiven graph) :
    storage.settle value = value := by
  cases given with
  | literal value => exact storage.settle_literal value
  | expression recorded =>
      cases value with
      | handle scalar => exact storage.settle_handle scalar
      | dual number => exact storage.settle_dual number
      | _ => exact recorded.elim

end Value.IsGiven

theorem Builtin.isRecorded_of_apply {function : Builtin} {name : String}
    {args : List Value} {session after : Session} {value : Value}
    (isOpen : session.IsOpen) (sound : ∀ value ∈ args, value.IsSound session.graph)
    (ran : (function.apply name args).runOn session = (.ok value, after)) :
    session.Extends indifferent after ∧ value.IsRecorded after.graph := by
  by_cases fits : function = .dual → FitsDims args
  · rcases settles_apply function name isOpen sound fits with
      ⟨_, _, same, extended, recorded⟩ | ⟨fault, refused, -⟩
    · rw [ran] at same
      cases same
      exact ⟨extended, recorded⟩
    · rw [ran] at refused
      cases refused
  · obtain ⟨rfl, large⟩ := Classical.not_imp.mp fits
    obtain ⟨fault, _, failed, -⟩ := fails_applyDual name isOpen large
    rw [show (applyDual name args).runOn session = _ from ran] at failed
    cases failed

theorem Run.runOn_bind_of_ok {step : Run α} {next : α → Run β} {machine middle : Machine}
    {session between : Session} {value : α}
    (ran : step.runOn machine session = ((.ok value, middle), between)) :
    (step >>= next).runOn machine session = (next value).runOn middle between := by
  simp only [runOn, ExceptT.run_bind]
  simp only [Bind.bind, StateT.bind]
  rw [show step.run machine session = _ from ran]

theorem Run.runOn_calling_of_ok {step : Run α} {machine middle : Machine}
    {session between : Session} {value : α} (name : String)
    (ran : step.runOn machine session = ((.ok value, middle), between)) :
    (calling name step).runOn machine session = ((.ok value, middle), between) := by
  show runOn (ExceptT.tryCatch step _) machine session = _
  simp only [runOn, ExceptT.tryCatch, ExceptT.run_mk]
  simp only [Bind.bind, StateT.bind]
  rw [show step machine session = _ from ran]
  rfl

theorem Run.runOn_record_of_ok {call : RecordingCall Value} {session after : Session}
    {value : Value} (machine : Machine) (ran : call.runOn session = (.ok value, after)) :
    (record call).runOn machine session = ((.ok value, machine), after) := by
  have lifted : runOn (ExceptT.lift (StateT.lift call.run)) machine session =
      ((.ok (call.runOn session).1, machine), (call.runOn session).2) := rfl
  rw [ran] at lifted
  rw [record, runOn_bind_of_ok lifted]
  rfl

theorem Run.runOn_settleAll {values : List Value} {graph : Graph} (machine : Machine)
    (session : Session) (given : ∀ value ∈ values, value.IsGiven graph) :
    (values.mapM settle).runOn machine session = ((.ok values, machine), session) := by
  induction values with
  | nil => rfl
  | cons value values induction =>
      rw [List.forall_mem_cons] at given
      have settled : (settle value).runOn machine session =
          ((.ok value, machine), session) := by
        show ((Except.ok (machine.storage.settle value), machine), session) = _
        rw [given.1.settle_eq]
      rw [List.mapM_cons, runOn_bind_of_ok settled, runOn_bind_of_ok (induction given.2)]
      rfl

theorem RecordingCall.exists_of_runOn_bind {call : RecordingCall α}
    {next : α → RecordingCall β} {session after : Session} {result : β}
    (ran : (call >>= next).runOn session = (.ok result, after)) :
    ∃ value middle, call.runOn session = (.ok value, middle) ∧
      (next value).runOn middle = (.ok result, after) := by
  rw [runOn_bind] at ran
  rcases first : call.runOn session with ⟨fault | value, middle⟩
  · rw [first] at ran
    cases ran
  · rw [first] at ran
    exact ⟨value, middle, rfl, ran⟩

namespace Machine

/-- A machine that runs code outside of functions, with nothing bound or stored. -/
def standing (code : Code) (next : Nat) (stack : List Value) : Machine :=
  { start code with stack, position := ⟨code, next, []⟩ }

variable {code : Code} {next : Nat} {session after : Session}

theorem find?_builtin (function : Builtin) (code : Code) (next : Nat)
    (stack : List Value) :
    (standing code next stack).find? function.name = some (0, .builtin function) := by
  cases function with
  | unary operator => cases operator <;> rfl
  | binary operator => cases operator <;> rfl
  | _ => rfl

theorem run_of_perform {instruction : Instruction} {stack left : List Value}
    (found : code[next]? = some instruction)
    (performed : (Run.perform instruction).runOn (standing code next stack) session =
      ((.ok (), standing code (next + 1) left), after)) (steps : Nat) :
    (standing code next stack).run (steps + 1) session =
      (standing code (next + 1) left).run steps after := by
  have took : Run.step.runOn (standing code next stack) session =
      ((.ok true, standing code (next + 1) left), after) := by
    rw [Run.step, Run.runOn_bind_of_ok
      (show (get : Run Machine).runOn (standing code next stack) session = _ from rfl)]
    simp only [standing, found] at performed ⊢
    rw [Run.runOn_bind_of_ok performed]
    rfl
  rw [run, took]

theorem run_at_end (code : Code) (stack : List Value) (session : Session) (steps : Nat) :
    (standing code code.size stack).run (steps + 1) session =
      ((.ok (), standing code code.size stack), session) := by
  have stopped : Run.step.runOn (standing code code.size stack) session =
      ((.ok false, standing code code.size stack), session) := by
    rw [Run.step, Run.runOn_bind_of_ok
      (show (get : Run Machine).runOn (standing code code.size stack) session =
        _ from rfl)]
    simp only [standing, Array.getElem?_size]
    rfl
  rw [run, stopped]

theorem perform_push (value : Literal) (stack : List Value) :
    (Run.perform (.push (.literal value))).runOn (standing code next stack) session =
      ((.ok (), standing code (next + 1) (.literal value :: stack)), session) := rfl

theorem perform_call (function : Builtin) {values : List Value} {value : Value}
    {graph : Graph} (stack : List Value) (given : ∀ value ∈ values, value.IsGiven graph)
    (ran : (function.apply function.name values).runOn session = (.ok value, after)) :
    (Run.perform (.call function.name false none values.length)).runOn
        (standing code next (values.reverse ++ stack)) session =
      ((.ok (), standing code (next + 1) (value :: stack)), after) := by
  have looked : (Run.lookup function.name).runOn
      (standing code next (values.reverse ++ stack)) session =
        ((.ok (.builtin function), standing code next (values.reverse ++ stack)),
          session) := by
    rw [Run.lookup,
      Run.runOn_bind_of_ok (show (get : Run Machine).runOn _ _ = _ from rfl),
      find?_builtin]
    rfl
  have popped : (Run.popArgs function.name values.length).runOn
      (standing code next (values.reverse ++ stack)) session =
        ((.ok values, standing code next stack), session) := by
    have taken : (values.reverse ++ stack).take values.length = values.reverse := by
      rw [← List.length_reverse, List.take_left]
    have dropped : (values.reverse ++ stack).drop values.length = stack := by
      rw [← List.length_reverse, List.drop_left]
    rw [Run.popArgs,
      Run.runOn_bind_of_ok (show (get : Run Machine).runOn _ _ = _ from rfl)]
    simp only [standing, taken, dropped, List.length_reverse, lt_irrefl, if_false,
      List.reverse_reverse]
    rfl
  show (Run.callNamed function.name false values.length).runOn _ _ = _
  rw [Run.callNamed, if_neg (by decide), Run.runOn_bind_of_ok looked]
  simp only [Run.callBuiltin]
  rw [Run.runOn_bind_of_ok popped, Run.runOn_bind_of_ok (Run.runOn_settleAll _ _ given),
    Run.runOn_bind_of_ok (Run.runOn_calling_of_ok _ (Run.runOn_record_of_ok _ ran))]
  rfl

/-- Wherever the instructions stand in a code, they take the one values off the stack and
leave the others there, the topmost first. -/
def Executes (instructions : List Instruction) (taken : List Value) (session : Session)
    (left : List Value) (after : Session) : Prop :=
  ∀ (before rest : List Instruction) (stack : List Value) (steps : Nat),
    (standing (before ++ instructions ++ rest).toArray before.length (taken ++ stack)).run
        (instructions.length + steps) session =
      (standing (before ++ instructions ++ rest).toArray (before ++ instructions).length
        (left ++ stack)).run steps after

namespace Executes

variable {first second : List Instruction} {taken middle left : List Value}
  {between : Session}

theorem of_perform {instruction : Instruction}
    (performed : ∀ (code : Code) (next : Nat) (stack : List Value),
      (Run.perform instruction).runOn (standing code next (taken ++ stack)) session =
        ((.ok (), standing code (next + 1) (left ++ stack)), after)) :
    Executes [instruction] taken session left after := by
  intro before rest stack steps
  have found : (before ++ [instruction] ++ rest).toArray[before.length]? =
      some instruction := by simp
  rw [List.length_append, List.length_singleton, Nat.add_comm 1 steps]
  exact run_of_perform found (performed _ _ stack) steps

theorem append (early : Executes first taken session middle between)
    (late : Executes second middle between left after) :
    Executes (first ++ second) taken session left after := by
  intro before rest stack steps
  have start := early before (second ++ rest) stack (second.length + steps)
  have finish := late (before ++ first) rest stack steps
  simp only [List.append_assoc, List.length_append, Nat.add_assoc] at start finish ⊢
  exact start.trans finish

/-- What is not taken stays where it is. -/
theorem frame (executes : Executes first taken session left after) (under : List Value) :
    Executes first (taken ++ under) session (left ++ under) after := by
  intro before rest stack steps
  rw [List.append_assoc taken, List.append_assoc left]
  exact executes before rest (under ++ stack) steps

end Executes

end Machine

/-- The program has a code which, given steps enough, runs to its end and leaves the value
as all that is on the stack. -/
def Evaluates (program : List Datum) (session : Session) (value : Value)
    (after : Session) : Prop :=
  ∃ code, programCode program = .ok code ∧ ∀ steps, code.size < steps →
    ∃ machine : Machine, (Machine.start code).run steps session =
      ((.ok (), machine), after) ∧ machine.stack = [value]

namespace CallTree

open Machine

mutual

theorem executes_code : (tree : CallTree) → {session after : Session} → {value : Value} →
    session.IsOpen → tree.evaluate.runOn session = (.ok value, after) →
    Executes tree.code [] session [value] after ∧
      session.Extends indifferent after ∧ value.IsGiven after.graph
  | literal datum, session, after, value, isOpen, ran => by
      cases ran
      exact ⟨.of_perform fun _ _ stack => perform_push datum stack, .refl isOpen,
        .literal datum⟩
  | call function args, session, after, value, isOpen, ran => by
      rw [evaluate] at ran
      obtain ⟨values, middle, evaluated, applied⟩ :=
        RecordingCall.exists_of_runOn_bind ran
      obtain ⟨executes, extended, given, sameLength⟩ :=
        executes_codeAll args isOpen evaluated
      obtain ⟨further, recorded⟩ := Builtin.isRecorded_of_apply extended.isOpen
        (fun value member => (given value member).isSound) applied
      refine ⟨?_, extended.trans further, .expression recorded⟩
      rw [code, ← sameLength]
      refine executes.append (.of_perform fun code next stack => ?_)
      exact perform_call function stack given applied

theorem executes_codeAll : (trees : List CallTree) → {session after : Session} →
    {values : List Value} → session.IsOpen →
    (evaluateAll trees).runOn session = (.ok values, after) →
    Executes (codeAll trees) [] session values.reverse after ∧
      session.Extends indifferent after ∧ (∀ value ∈ values, value.IsGiven after.graph) ∧
      values.length = trees.length
  | [], session, after, values, isOpen, ran => by
      cases ran
      exact ⟨fun before rest stack steps => by simp [codeAll], .refl isOpen, by simp, rfl⟩
  | head :: tail, session, after, values, isOpen, ran => by
      rw [evaluateAll] at ran
      obtain ⟨first, middle, evaluated, continued⟩ :=
        RecordingCall.exists_of_runOn_bind ran
      obtain ⟨others, last, evaluatedRest, same⟩ :=
        RecordingCall.exists_of_runOn_bind continued
      cases same
      obtain ⟨early, extended, given⟩ := executes_code head isOpen evaluated
      obtain ⟨late, further, givenRest, sameLength⟩ :=
        executes_codeAll tail extended.isOpen evaluatedRest
      refine ⟨?_, extended.trans further, ?_, congrArg Nat.succ sameLength⟩
      · rw [codeAll, List.reverse_cons]
        exact early.append (late.frame [first])
      · exact List.forall_mem_cons.mpr ⟨given.mono further.size_le, givenRest⟩

end

theorem evaluates_datum {tree : CallTree} {session after : Session} {value : Value}
    (isOpen : session.IsOpen) (ran : tree.evaluate.runOn session = (.ok value, after)) :
    Evaluates [tree.datum] session value after := by
  refine ⟨tree.code.toArray, programCode_datum tree, fun steps enough => ?_⟩
  obtain ⟨more, rfl⟩ : ∃ more, steps = tree.code.length + (more + 1) :=
    ⟨steps - tree.code.length - 1, by simp at enough; omega⟩
  have executes := (executes_code tree isOpen ran).1 [] [] [] (more + 1)
  simp only [List.nil_append, List.append_nil] at executes
  exact ⟨_, executes.trans (run_at_end _ _ _ more), rfl⟩

theorem not_evaluates_of_run {tree : CallTree} {session after : Session} {value : Value}
    (fails : ((start tree.code.toArray).run (tree.code.length + 1) session).1.1.isOk =
      false) :
    ¬Evaluates [tree.datum] session value after := by
  rintro ⟨code, compiled, runs⟩
  rw [programCode_datum] at compiled
  cases compiled
  obtain ⟨machine, ran, -⟩ := runs (tree.code.length + 1) (by simp)
  rw [ran] at fails
  cases fails

end CallTree

end CostTape.Script
