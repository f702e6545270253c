import CostTape.Proofs.Recording.Confinement
import CostTape.Script.Execution

/-! A script touches its session through the recording functions alone. -/

namespace CostTape.Script

open Session RecordingCall

theorem RecordingCall.confined_perform (name : String) {step : Recording α}
    (confined : Confined step.run) : Confined (perform name step).run :=
  confined.bind fun _ => .pure _

theorem RecordingCall.confined_demand (place : String) (what : Expectation)
    (value : Value) (found : Option α) :
    Confined (demand place what value found).run := by
  cases found with
  | none => exact .exceptThrow _
  | some result => exact .exceptPure _

namespace Builtin

theorem confined_liftDuals_checked (name : String) (first second : Dual) :
    Confined (liftDuals.checked name first second).run := by
  unfold liftDuals.checked
  split
  · exact .exceptPure _
  · exact .exceptThrow _

theorem confined_lift (name : String) (handle : Handle) (dims : Int) :
    Confined (perform name do
      Dual.ofHandle (← Recording.materialize handle) dims).run :=
  confined_perform name
    ((Confined.exceptMap _ (Recording.confined_operand handle)).exceptBind
    fun _ => Dual.confined_ofHandle _ _)

theorem confined_liftDuals (name : String) (left right : Value) :
    Confined (liftDuals name left right).run := by
  unfold liftDuals
  split
  · exact .exceptPure _
  · exact confined_liftDuals_checked _ _ _
  · exact (confined_demand _ _ _ _).exceptBind fun _ =>
      (confined_lift _ _ _).exceptBind fun _ => confined_liftDuals_checked _ _ _
  · exact (confined_demand _ _ _ _).exceptBind fun _ =>
      (confined_lift _ _ _).exceptBind fun _ => confined_liftDuals_checked _ _ _

theorem confined_applyBinary (operator : BinaryOperator) (name : String)
    (args : List Value) : Confined (applyBinary operator name args).run := by
  unfold applyBinary
  split
  next left right =>
    have scalars : Confined (do
        let first ← scalar (name ++ ": lhs") left
        let second ← scalar (name ++ ": rhs") right
        Value.handle <$> perform name (Recording.binary operator first second)).run :=
      (confined_demand _ _ _ _).exceptBind fun _ =>
        (confined_demand _ _ _ _).exceptBind fun _ =>
          .exceptMap _ (confined_perform name (Recording.confined_binary _ _ _))
    cases Dual.binary? operator with
    | none => exact scalars
    | some operation =>
        refine (confined_liftDuals name left right).exceptBind fun lifted => ?_
        cases lifted with
        | none => exact scalars
        | some pair =>
            exact .exceptMap _
              (confined_perform name (Dual.confined_binary_operation _ _ _))
  · exact .exceptThrow _

theorem confined_applyUnary (operator : UnaryOperator) (name : String)
    (args : List Value) : Confined (applyUnary operator name args).run := by
  unfold applyUnary
  split
  · split
    · split
      · exact .exceptMap _ (confined_perform name (Dual.confined_unary_operation _ _))
      · exact .exceptThrow _
    · exact (confined_demand _ _ _ _).exceptBind fun _ =>
        .exceptMap _ (confined_perform name (Recording.confined_unary _ _))
  · exact .exceptThrow _

theorem confined_applyConstant (name : String) (args : List Value) :
    Confined (applyConstant name args).run := by
  unfold applyConstant
  split
  · exact (confined_demand _ _ _ _).exceptBind fun _ =>
      .exceptMap _ (confined_perform name (Recording.confined_constant _))
  · exact .exceptThrow _

theorem confined_applyParam (name : String) (args : List Value) :
    Confined (applyParam name args).run := by
  unfold applyParam
  split
  · exact (confined_demand _ _ _ _).exceptBind fun _ =>
      .exceptMap _ (confined_perform name (Recording.confined_apply rfl _ _))
  · exact .exceptThrow _

theorem confined_applyOutput (name : String) (args : List Value) :
    Confined (applyOutput name args).run := by
  unfold applyOutput
  split
  · refine (confined_demand _ _ _ _).exceptBind fun _ => ?_
    split
    · exact .exceptThrow _
    · exact (confined_demand _ _ _ _).exceptBind fun _ =>
        .exceptMap _ (confined_perform name (Recording.confined_apply rfl _ _))
  · exact .exceptThrow _

theorem confined_scalars (place : String) (args : List Value) :
    Confined (scalars place args).run :=
  .exceptMapM _ fun (_, _) => confined_demand _ _ _ _

theorem confined_applyCall (name : String) (args : List Value) :
    Confined (applyCall name args).run := by
  unfold applyCall
  split
  · exact .exceptThrow _
  · exact (confined_demand _ _ _ _).exceptBind fun _ =>
      (confined_scalars _ _).exceptBind fun _ =>
        .exceptMap _ (confined_perform name (Recording.confined_apply rfl _ _))

theorem confined_applyTernary (name : String) (args : List Value) :
    Confined (applyTernary name args).run := by
  unfold applyTernary
  split
  · refine (confined_scalars _ _).exceptBind fun handles => ?_
    split
    · exact .exceptMap _ (confined_perform name (Recording.confined_apply rfl _ _))
    · exact .exceptThrow _
  · exact .exceptThrow _

theorem confined_overwrite (name : String) (destination value : Value) :
    Confined (overwrite name destination value) := by
  unfold overwrite
  split
  · refine Confined.bind ((confined_demand _ _ _ _).exceptBind fun _ =>
      confined_perform name (Recording.confined_assign _ _)) fun outcome => ?_
    cases outcome <;> exact .pure _
  · split
    · exact .pure _
    · exact (Dual.confined_assign _ _).bind fun _ => .pure _
  · exact .pure _

theorem confined_applyAssign (name : String) (args : List Value) :
    Confined (applyAssign name args).run := by
  unfold applyAssign
  split
  · refine Confined.exceptBind ((confined_overwrite _ _ _).bind fun _ => .pure _)
      fun (_, outcome) => ?_
    cases outcome with
    | ok => exact .exceptPure _
    | error fault => exact .exceptThrow _
  · exact .exceptThrow _

theorem confined_dualDims (keywords : Names Value) :
    Confined (dualDims keywords).run := by
  unfold dualDims
  split
  · exact .exceptPure _
  · refine (confined_demand _ _ _ _).exceptBind fun dims => ?_
    split
    · exact .exceptThrow _
    · exact .exceptPure _

theorem confined_dualSeed (keywords : Names Value) (dims : Int) :
    Confined (dualSeed keywords dims).run := by
  unfold dualSeed
  split
  · exact .exceptPure _
  · refine (confined_demand _ _ _ _).exceptBind fun seed => ?_
    split
    · exact .exceptThrow _
    · exact .exceptPure _

theorem confined_makeDual (name : String) (value : Value) (dims : Int)
    (seed : Option Int) : Confined (makeDual name value dims seed).run := by
  unfold makeDual
  split
  · exact .exceptMap _ (confined_perform name (Dual.confined_ofHandle _ _))
  · exact .exceptMap _ (confined_perform name
      ((Dual.confined_ofHandle _ _).exceptBind fun dual => Dual.confined_seed dual _))
  · exact (confined_demand _ _ _ _).exceptBind fun _ =>
      .exceptMap _ (confined_perform name (Dual.confined_constant _ _))
  · exact (confined_demand _ _ _ _).exceptBind fun _ =>
      .exceptMap _ (confined_perform name (Dual.confined_seeded _ _ _))

theorem confined_applyDual (name : String) (args : List Value) :
    Confined (applyDual name args).run := by
  unfold applyDual
  simp only
  split
  · exact (confined_dualDims _).exceptBind fun _ =>
      (confined_dualSeed _ _).exceptBind fun _ => confined_makeDual _ _ _ _
  · exact .exceptThrow _

theorem confined_applyPrimal (args : List Value) : Confined (applyPrimal args).run := by
  unfold applyPrimal
  split
  · split
    · exact .exceptPure _
    · exact .exceptThrow _
  · exact .exceptThrow _

theorem confined_applyPartial (args : List Value) : Confined (applyPartial args).run := by
  unfold applyPartial
  split
  · split
    · exact .exceptThrow _
    · refine (confined_demand _ _ _ _).exceptBind fun index => ?_
      split
      · exact .exceptPure _
      · exact .exceptThrow _
  · exact .exceptThrow _

theorem confined_apply (function : Builtin) (name : String) (args : List Value) :
    Confined (function.apply name args).run := by
  cases function with
  | constant => exact confined_applyConstant name args
  | param => exact confined_applyParam name args
  | output => exact confined_applyOutput name args
  | unary operator => exact confined_applyUnary operator name args
  | binary operator => exact confined_applyBinary operator name args
  | call => exact confined_applyCall name args
  | ternary => exact confined_applyTernary name args
  | assign => exact confined_applyAssign name args
  | dual => exact confined_applyDual name args
  | primal => exact confined_applyPrimal args
  | partialAt => exact confined_applyPartial args
  | nop => exact .exceptMap _ (confined_perform name (Recording.confined_apply rfl _ _))

end Builtin

/-- All that happens in the session happens through the builtin functions.  They are
called one after the other, and what comes of the calls decides how it goes on.  Among
their arguments, values of kinds that they know nothing of count as nil. -/
inductive ActsThroughBuiltins : StateM Session α → Prop
  | done (value : α) : ActsThroughBuiltins (pure value)
  | call (function : Builtin) (name : String) (args : List Value)
      {next : Except CallFault Value → StateM Session α}
      (rest : ∀ result, ActsThroughBuiltins (next result)) :
      ActsThroughBuiltins ((function.apply name args).run >>= next)

namespace ActsThroughBuiltins

theorem bind {step : StateM Session α} {next : α → StateM Session β}
    (first : ActsThroughBuiltins step)
    (second : ∀ value, ActsThroughBuiltins (next value)) :
    ActsThroughBuiltins (step >>= next) := by
  induction first with
  | done value =>
      rw [pure_bind]
      exact second value
  | call function name args rest induction =>
      rw [bind_assoc]
      exact .call function name args induction

theorem confined {step : StateM Session α} (acts : ActsThroughBuiltins step) :
    Confined step := by
  induction acts with
  | done value => exact .pure value
  | call function name args rest induction =>
      exact (function.confined_apply name args).bind induction

end ActsThroughBuiltins

namespace Run

/-- The step acts through the builtin functions, whatever the state of the machine. -/
def Acts (step : Run α) : Prop :=
  ∀ machine : Machine, ActsThroughBuiltins (step.run.run machine)

namespace Acts

variable {step : Run α}

theorem pure (value : α) : (pure value : Run α).Acts :=
  fun _ => .done _

theorem throw (fault : RunFault) : (throw fault : Run α).Acts :=
  fun _ => .done _

theorem bind {next : α → Run β} (first : step.Acts)
    (second : ∀ value, (next value).Acts) : (step >>= next).Acts := by
  intro machine
  rw [ExceptT.run_bind, StateT.run_bind]
  refine (first machine).bind fun (outcome, middle) => ?_
  cases outcome with
  | ok value => exact second value middle
  | error fault => exact .done _

theorem tryCatch {handler : RunFault → Run α} (first : step.Acts)
    (second : ∀ fault, (handler fault).Acts) :
    (tryCatch step handler).Acts := by
  intro machine
  have unfolded : (MonadExcept.tryCatch step handler).run =
      (step.run >>= fun outcome =>
        match outcome with
        | .ok value => Pure.pure (.ok value)
        | .error fault => (handler fault).run) := by
    show (ExceptT.tryCatch step handler).run = _
    unfold ExceptT.tryCatch
    refine bind_congr fun outcome => ?_
    cases outcome <;> rfl
  rw [unfolded, StateT.run_bind]
  refine (first machine).bind fun (outcome, middle) => ?_
  cases outcome with
  | ok value => exact .done _
  | error fault => exact second fault middle

theorem get : (get : Run Machine).Acts :=
  fun _ => .done _

theorem set (machine : Machine) : (set machine : Run PUnit).Acts :=
  fun _ => .done _

theorem modify (change : Machine → Machine) : (modify change : Run PUnit).Acts :=
  fun _ => .done _

theorem modifyGet (change : Machine → α × Machine) :
    (modifyGet change : Run α).Acts :=
  fun _ => .done _

theorem mapM {step : α → Run β} (items : List α)
    (each : ∀ item, (step item).Acts) : (items.mapM step).Acts := by
  induction items with
  | nil => exact pure []
  | cons item items induction =>
      rw [List.mapM_cons]
      exact (each item).bind fun _ => induction.bind fun _ => pure _

theorem record (function : Builtin) (name : String) (args : List Value) :
    (record (function.apply name args)).Acts := by
  refine bind (fun machine => ?_) fun outcome => ?_
  · show ActsThroughBuiltins ((function.apply name args).run >>= fun outcome =>
      Pure.pure (Except.ok outcome, machine))
    exact .call function name args fun _ => .done _
  · cases outcome with
    | ok value => exact pure _
    | error fault => exact throw _

end Acts

open Acts

theorem acts_pop? : pop?.Acts := by
  refine .bind .get fun machine => ?_
  split
  · exact .pure _
  · exact .bind (.set _) fun _ => .pure _

theorem acts_pop : pop.Acts := by
  refine acts_pop?.bind fun popped => ?_
  cases popped with
  | none => exact .throw _
  | some value => exact .pure _

theorem acts_popArgs (name : String) (count : Nat) :
    (popArgs name count).Acts := by
  refine .bind .get fun machine => ?_
  simp only
  split
  · exact .throw _
  · exact .bind (.set _) fun _ => .pure _

theorem acts_settle (value : Value) : (settle value).Acts :=
  .bind .get fun _ => .pure _

theorem acts_store (call : CoreCall Value) : (store call).Acts := by
  refine .bind (.modifyGet _) fun outcome => ?_
  cases outcome with
  | ok value => exact .pure _
  | error fault => exact .throw _

mutual

theorem acts_quoted : (datum : Datum) → (quoted datum).Acts
  | .literal value => .pure _
  | .symbol name inert => .pure _
  | .list head tail => by
      unfold quoted
      exact (acts_quoted head).bind fun _ =>
        (acts_quotedAll tail).bind fun _ => .pure _
  | .array items => by
      unfold quoted
      exact (acts_quotedAll items).bind fun _ => acts_store _

theorem acts_quotedAll : (data : List Datum) → (quotedAll data).Acts
  | [] => .pure _
  | head :: tail => by
      unfold quotedAll
      exact (acts_quoted head).bind fun _ =>
        (acts_quotedAll tail).bind fun _ => .pure _

end

theorem acts_lookup (name : String) : (lookup name).Acts := by
  refine .bind .get fun machine => ?_
  split
  · exact .pure _
  · exact .throw _

theorem acts_bind (name : String) (value : Value) :
    (Run.bind name value).Acts := by
  refine .bind .get fun machine => ?_
  simp only
  split
  · split
    · exact .set _
    · exact .throw _
  · exact .set _

theorem acts_update (name : String) (value : Value) :
    (update name value).Acts := by
  refine .bind .get fun machine => ?_
  split
  · exact .set _
  · exact acts_bind name value

theorem acts_bindItems (index : Nat) (items : List (Value × Value)) :
    (bindItems index items).Acts := by
  induction items generalizing index with
  | nil => exact .pure _
  | cons item items induction =>
      obtain ⟨target, value⟩ := item
      unfold bindItems
      split
      · exact (acts_bind _ _).bind fun _ => induction _
      · exact .throw _

theorem acts_assign (target value : Value) : (assign target value).Acts := by
  refine (acts_settle target).bind fun settled =>
    (acts_settle value).bind fun source => ?_
  split
  · exact acts_bind _ _
  · split
    · exact acts_bindItems _ _
    · exact .throw _
  · exact .throw _
  · exact .throw _

theorem acts_gather (function : Closure) (count : Nat) :
    (gather function count).Acts := by
  unfold gather
  simp only
  split
  · exact .throw _
  · exact .bind .get fun _ => .set _

theorem acts_enter (function : Closure) (count : Nat) (frame : Frame) :
    (enter function count frame).Acts := by
  refine .bind (.modify _) fun _ => ?_
  split
  · exact (acts_gather function count).bind fun _ => .modify _
  · split
    · exact .bind (.throw _) fun _ => .modify _
    · exact .modify _

theorem acts_following : following.Acts :=
  .bind .get fun _ => .pure _

theorem acts_mapped (isList : Bool) (results : List Value) :
    (mapped isList results).Acts := by
  unfold mapped
  split
  · exact .pure _
  · exact (Acts.mapM results acts_settle).bind fun _ => acts_store _

theorem acts_continueMapping (work : Mapping) (position : Position) :
    (continueMapping work position).Acts := by
  unfold continueMapping
  split
  · exact (acts_mapped _ _).bind fun _ => .bind (.modify _) fun _ => .modify _
  · exact .bind (.modify _) fun _ => acts_enter _ _ _

theorem acts_mapOver {call : List Value → Run Value} (isList : Bool)
    (items : List Value) (confined : ∀ args, (call args).Acts) :
    (mapOver call isList items).Acts :=
  (Acts.mapM items fun _ => confined _).bind fun _ =>
    (acts_mapped _ _).bind fun _ => .bind (.modify _) fun _ => .modify _

theorem acts_calling (name : String) {step : Run α} (confined : step.Acts) :
    (calling name step).Acts :=
  confined.tryCatch fun _ => .throw _

theorem acts_mapItems (name : String) (function : Value) (isList : Bool)
    (items : List Value) : (mapItems name function isList items).Acts := by
  unfold mapItems
  split
  · exact acts_calling name (acts_mapOver isList items fun _ => acts_store _)
  · exact acts_calling name (acts_mapOver isList items fun _ =>
      .record _ _ _)
  · exact acts_following.bind fun _ => acts_continueMapping _ _
  · exact .throw _

theorem acts_callMap (name : String) (args : List Value) :
    (callMap name args).Acts := by
  unfold callMap
  split
  · split
    · split
      · exact acts_mapItems _ _ _ _
      · exact acts_mapItems _ _ _ _
      · exact .throw _
    · split
      · exact acts_mapItems _ _ _ _
      · exact acts_mapItems _ _ _ _
      · exact .throw _
    · split
      · exact acts_mapItems _ _ _ _
      · exact acts_mapItems _ _ _ _
      · exact .throw _
    · exact .throw _
  · exact .throw _

theorem acts_callCore (function : CoreFunction) (name : String) (count : Nat) :
    (callCore function name count).Acts := by
  refine (acts_popArgs name count).bind fun args =>
    (Acts.mapM args acts_settle).bind fun args => ?_
  split
  · exact acts_callMap name args
  · exact (acts_calling name (acts_store _)).bind fun _ =>
      .bind (.modify _) fun _ => .modify _

theorem acts_callBuiltin (function : Builtin) (name : String) (count : Nat) :
    (callBuiltin function name count).Acts := by
  refine (acts_popArgs name count).bind fun args =>
    (Acts.mapM args acts_settle).bind fun args => ?_
  exact (acts_calling name (.record function name args)).bind fun _ =>
    .bind (.modify _) fun _ => .modify _

theorem acts_callClosure (function : Closure) (count : Nat) :
    (callClosure function count).Acts :=
  acts_following.bind fun _ => acts_enter _ _ _

theorem acts_callNamed (name : String) (inert : Bool) (count : Nat) :
    (callNamed name inert count).Acts := by
  unfold callNamed
  split
  · exact .throw _
  · refine (acts_lookup name).bind fun value => ?_
    split
    · exact acts_callCore _ _ _
    · exact acts_callBuiltin _ _ _
    · exact acts_callClosure _ _
    · refine .bind .get fun machine => ?_
      split
      · exact .throw _
      · exact acts_callCore _ _ _
      · exact acts_callBuiltin _ _ _
      · exact acts_callClosure _ _
      · exact .throw _
    · exact .throw _

theorem acts_dispatch (count : Nat) : (dispatch count).Acts := by
  refine acts_pop.bind fun value => ?_
  split
  · exact acts_callCore _ _ _
  · exact acts_callBuiltin _ _ _
  · exact acts_callClosure _ _
  · exact (acts_settle _).bind fun _ => .throw _

theorem acts_leave : leave.Acts := by
  refine .bind .get fun machine => ?_
  split
  · exact .modify _
  · exact .set _
  · exact .bind (.set _) fun _ => acts_pop?.bind fun _ => acts_continueMapping _ _

theorem acts_popToMark (loop : Nat) : (popToMark loop).Acts := by
  refine .bind .get fun machine => ?_
  split
  · exact .throw _
  · exact .set _

theorem acts_jumpInLoop (loop : Nat) (steps : Nat → Nat → Nat) :
    (jumpInLoop loop steps).Acts := by
  refine .bind .get fun machine => ?_
  simp only
  split
  · exact .modify _
  · exact .throw _

theorem acts_perform (instruction : Instruction) :
    (perform instruction).Acts := by
  cases instruction with
  | push datum =>
      exact (acts_quoted datum).bind fun _ => .bind (.modify _) fun _ => .modify _
  | load name =>
      exact (acts_lookup name).bind fun _ => .bind (.modify _) fun _ => .modify _
  | bind name =>
      exact acts_pop.bind fun _ => (acts_bind _ _).bind fun _ => .modify _
  | update name =>
      exact acts_pop.bind fun _ => (acts_update _ _).bind fun _ => .modify _
  | assign =>
      refine .bind (.modify _) fun _ => acts_pop?.bind fun value =>
        acts_pop?.bind fun target => ?_
      split
      · exact acts_assign _ _
      · exact .pure _
  | pop => exact acts_pop?.bind fun _ => .modify _
  | copy =>
      exact acts_pop.bind fun _ => .bind (.modify _) fun _ =>
        .bind (.modify _) fun _ => .modify _
  | skip steps => exact .modify _
  | back steps => exact .bind .get fun _ => .modify _
  | branch direction steps => exact acts_pop.bind fun _ => .modify _
  | restart => exact .modify _
  | enterScope => exact .bind (.modify _) fun _ => .modify _
  | enterFunction => exact .bind (.modify _) fun _ => .modify _
  | leaveScope => exact .bind (.modify _) fun _ => .modify _
  | function label params gathers code source =>
      exact .bind .get fun _ => .bind (.modify _) fun _ => .modify _
  | call name inert core count =>
      cases core with
      | some function => exact acts_callCore function name count
      | none => exact acts_callNamed name inert count
  | dispatch count => exact acts_dispatch count
  | leave => exact acts_leave
  | mark loop => exact .bind (.modify _) fun _ => .modify _
  | popToMark loop => exact (acts_popToMark loop).bind fun _ => .modify _
  | popMark loop =>
      exact (acts_popToMark loop).bind fun _ => acts_pop?.bind fun _ => .modify _
  | loop number breakSteps continueSteps => exact .modify _
  | breakLoop loop => exact acts_jumpInLoop _ _
  | continueLoop loop => exact acts_jumpInLoop _ _
  | refute condition => exact .throw _

theorem acts_step : step.Acts := by
  refine .bind .get fun machine => ?_
  simp only
  split
  · exact .pure _
  · exact (acts_perform _).bind fun _ => .pure _

end Run

theorem Machine.run_succ (steps : Nat) (machine : Machine) :
    machine.run (steps + 1) =
      StateT.run (do
        match ← Run.step.run.run machine with
        | (.ok true, next) => (StateT.mk (next.run steps) : StateM Session _)
        | (.ok false, last) => pure (.ok (), last)
        | (.error fault, last) => pure (.error (last.report fault), last)) := by
  funext session
  have taken : (Run.step.run.run machine).run session = Run.step.runOn machine session :=
    rfl
  rw [Machine.run, StateT.run_bind, taken]
  rcases Run.step.runOn machine session with ⟨⟨fault | more, next⟩, after⟩
  · rfl
  · cases more <;> rfl

theorem Machine.acts_run (steps : Nat) (machine : Machine) :
    ActsThroughBuiltins (StateT.mk (machine.run steps)) := by
  induction steps generalizing machine with
  | zero => exact .done _
  | succ steps induction =>
      rw [Machine.run_succ]
      refine (Run.acts_step machine).bind fun taken => ?_
      split
      · exact induction _
      · exact .done _
      · exact .done _

theorem acts_interpreter (limit : Duration) (text : String) :
    ActsThroughBuiltins (interpreter limit text) := by
  unfold interpreter execute
  split
  · exact .done _
  · refine (Machine.acts_run _ _).bind fun ran => ?_
    simp only
    split <;> exact .done _

end CostTape.Script
