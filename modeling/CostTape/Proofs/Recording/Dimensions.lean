import CostTape.Proofs.Recording.Assignment
import CostTape.Proofs.Recording.Refusal

/-! Dual numbers with different numbers of partials do not go together.  The number is
open in a dual number that was never set, and in a sum of one without partials and a
scalar. -/

namespace CostTape

namespace Dual

/-- The name under which the operation complains. -/
def BinaryOperation.name : BinaryOperation → String
  | add => "add"
  | sub => "sub"
  | mul => "mul"
  | div => "div"

theorem BinaryOperation.runOn_apply_of_ne (operation : BinaryOperation)
    {left right : Dual} (differ : left.dims ≠ right.dims) (session : Session) :
    (operation.apply left right).runOn session =
      (.error (.unequalDims operation.name left.dims right.dims), session) := by
  have refused (name : String) :
      demandEqualDims name left right = throw (.unequalDims name left.dims right.dims) :=
    if_neg differ
  cases operation with
  | add =>
      simp only [apply, Dual.add, refused]
      rfl
  | sub =>
      simp only [apply, Dual.sub, refused]
      rfl
  | mul =>
      simp only [apply, Dual.mul, refused]
      rfl
  | div =>
      simp only [apply, Dual.div, refused]
      rfl

theorem slots_of_assign (destination source : Dual) (session : Session) :
    ((destination.assign source).run session).1.1 = destination ∨
      ((destination.assign source).run session).1.1.slots ≠ none := by
  rw [run_assign]
  simp only
  split
  · exact .inl rfl
  · exact .inr (Option.some_ne_none _)

theorem dims_of_assign {destination source given : Dual} {session after : Session}
    {outcome : Except RecordingFault Unit} (fits : destination.Fits source)
    (ran : (destination.assign source).run session = ((given, outcome), after)) :
    given.dims = source.dims := by
  obtain ⟨result, finished, same⟩ := exists_run_assign fits session
  rw [ran] at finished
  cases finished
  have length := congrArg List.length same
  rw [length_assignEach, length_targets fits] at length
  exact Nat.succ.inj length

end Dual

namespace Workbench

variable {bench : Workbench} {name : String}

theorem dual_keepDual (bench : Workbench) (name : String) (dual : Dual) (key : String) :
    (bench.keepDual (some name) dual).dual key =
      if key = name then dual else bench.dual key := by
  simp only [keepDual, Workbench.dual, Names.find?_assign]
  split <;> rfl

theorem dual_keepDual_cases (bench : Workbench) (out : Option String) (dual : Dual)
    (key : String) :
    (bench.keepDual out dual).dual key = dual ∨
      (bench.keepDual out dual).dual key = bench.dual key := by
  cases out with
  | none => exact .inr rfl
  | some name =>
      rw [dual_keepDual]
      split
      · exact .inl rfl
      · exact .inr rfl

/-- A scalar was added to a dual number without partials, and this is the sum. -/
def GivenByEmptySum (bench : Workbench) (commands : List Command) (dual : Dual) : Prop :=
  ∃ (earlier later : List Command) (session : String) (out : Option String)
      (summand : String) (scalar : Operand),
    commands = earlier ++ ⟨session, out, .dual (.addScalar summand scalar)⟩ :: later ∧
      ((bench.after earlier).dual summand).dims = 0 ∧
      ((bench.after earlier).perform session out (.dual (.addScalar summand scalar))).1 =
        .ok (.dual dual)

theorem GivenByEmptySum.cons {command : Command} {commands : List Command} {dual : Dual}
    (given : (bench.perform command.session command.out command.request).2.GivenByEmptySum
      commands dual) :
    bench.GivenByEmptySum (command :: commands) dual := by
  obtain ⟨earlier, later, session, out, summand, scalar, rfl, empty, sum⟩ := given
  exact ⟨command :: earlier, later, session, out, summand, scalar, rfl, empty, sum⟩

/-- A request gives dual numbers with a fixed number of partials, copies and sums
apart. -/
theorem gives_slots {request : DualRequest}
    (step : (Request.dual request).isStep = true) :
    (bench.dualStep request).Gives fun _ _ dual => dual.slots = none →
      (∃ other, dual = bench.dual other) ∨
        ∃ summand scalar, request = .addScalar summand scalar ∧
          (bench.dual summand).dims = 0 := by
  have fixed {step : Recording Dual} {conclusion : Dual → Prop}
      (gives : step.Gives fun _ _ dual => dual.slots = some dual.partials) :
      step.Gives fun _ _ dual => dual.slots = none → conclusion dual := by
    refine gives.imp fun _ _ dual _ same absent => ?_
    rw [same] at absent
    cases absent
  have laid {step : Recording Dual} {conclusion : Dual → Prop} {count : Nat}
      (lays : step.Gives fun lower upper dual => dual.LaidOut count lower upper) :
      step.Gives fun _ _ dual => dual.slots = none → conclusion dual :=
    fixed (lays.imp fun _ _ _ _ laid => laid.slots_eq)
  cases request with
  | seeded value slot dims =>
      exact fixed ((Dual.gives_seeded value slot dims).imp fun _ _ _ _ given => given.1)
  | constant value dims => exact laid (Dual.gives_constant value dims)
  | ofHandle primal dims =>
      exact fixed ((Dual.gives_ofHandle _ dims).imp fun _ _ _ _ given => given.2.1)
  | literal primal partials => cases step
  | unary operation name => exact laid (operation.gives_apply _)
  | binary operation left right => exact laid (operation.gives_apply _ _)
  | scale name factor => exact laid (Dual.gives_scale _ _)
  | addScalar summand scalar =>
      refine (Dual.gives_addScalar _ _).imp fun _ _ _ _ given absent => ?_
      exact .inr ⟨summand, scalar, rfl, given.2.2.mp absent⟩
  | copy name => exact .pure fun _ _ => .inl ⟨name, rfl⟩

/-- One step: a dual number whose number of partials is open was there before, or it is
the sum that the step gives. -/
theorem open_of_perform {out : Option String} {request : Request} {key : String}
    {place : Nat} (named : bench.sessions.find? name = some place)
    (step : request.isStep = true)
    (absent : ((bench.perform name out request).2.dual key).slots = none) :
    (∃ other, (bench.perform name out request).2.dual key = bench.dual other) ∨
      ∃ summand scalar, request = .dual (.addScalar summand scalar) ∧
        (bench.dual summand).dims = 0 ∧
        (bench.perform name out request).1 =
          .ok (.dual ((bench.perform name out request).2.dual key)) := by
  cases request with
  | scalar request =>
      rcases ran : (bench.scalarStep request).runOn (bench.sessionOf name) with
        ⟨fault | handle, after⟩
      · rw [perform_scalar_of_error out named ran]
        exact .inl ⟨key, rfl⟩
      · rw [perform_scalar_of_ok out named ran]
        exact .inl ⟨key, by cases out <;> rfl⟩
  | assign destination source =>
      rcases ran : (Recording.assign (bench.handle (.named destination))
        (bench.handle source)).runOn (bench.sessionOf name) with ⟨fault | given, after⟩
      · rw [perform_assign_of_error out named ran]
        exact .inl ⟨key, rfl⟩
      · rw [perform_assign_of_ok out named ran]
        exact .inl ⟨key, rfl⟩
  | dual request =>
      rcases ran : (bench.dualStep request).runOn (bench.sessionOf name) with
        ⟨fault | dual, after⟩
      · rw [perform_dual_of_error out named ran]
        exact .inl ⟨key, rfl⟩
      · rw [perform_dual_of_ok out named ran] at absent ⊢
        obtain given | kept := dual_keepDual_cases (bench.recorded place after) out
          dual key
        · rw [given] at absent ⊢
          refine ((gives_slots step ran).2 absent).imp_right ?_
          rintro ⟨summand, scalar, rfl, empty⟩
          exact ⟨summand, scalar, rfl, empty, rfl⟩
        · exact .inl ⟨key, kept⟩
  | assignDual destination source =>
      have assigned := Dual.slots_of_assign (bench.dual destination) (bench.dual source)
        (bench.sessionOf name)
      rcases ran : ((bench.dual destination).assign (bench.dual source)).run
        (bench.sessionOf name) with ⟨⟨given, outcome⟩, after⟩
      rw [ran] at assigned
      rw [perform_assignDual out named ran] at absent ⊢
      obtain taken | kept :=
        dual_keepDual_cases (bench.recorded place after) (some destination) given key
      · rw [taken] at absent ⊢
        exact .inl ⟨destination, assigned.resolve_right (not_not_intro absent)⟩
      · exact .inl ⟨key, kept⟩
  | _ => cases step

theorem Coherent.open_after (coherent : bench.Coherent name) {commands : List Command}
    (steps : ∀ command ∈ commands, command.session = name ∧ command.request.isStep = true)
    {key : String} (absent : ((bench.after commands).dual key).slots = none) :
    (∃ other, (bench.after commands).dual key = bench.dual other) ∨
      bench.GivenByEmptySum commands ((bench.after commands).dual key) := by
  induction commands generalizing bench with
  | nil => exact .inl ⟨key, rfl⟩
  | cons command commands induction =>
      obtain ⟨⟨rfl, step⟩, others⟩ := List.forall_mem_cons.mp steps
      obtain ⟨place, named, -⟩ := coherent.started
      rw [after_cons] at absent ⊢
      obtain ⟨other, same⟩ | given :=
        induction (coherent.perform command.out step) others absent
      · rw [same] at absent ⊢
        -- What the first step left open is still open after the others.
        refine (open_of_perform named step absent).imp_right ?_
        rintro ⟨summand, scalar, isSum, empty, sum⟩
        refine ⟨[], commands, command.session, command.out, summand, scalar, ?_,
          empty, ?_⟩
        · rw [← isSum]
          rfl
        · rw [← isSum]
          exact sum
      · exact .inr given.cons

theorem Coherent.slots_of_emptySum (coherent : bench.Coherent name)
    {commands : List Command} (steps : ∀ command ∈ commands, command.session = name ∧
      command.request.isStep = true)
    {dual : Dual} (given : bench.GivenByEmptySum commands dual) : dual.slots = none := by
  obtain ⟨earlier, later, session, out, summand, scalar, rfl, empty, sum⟩ := given
  obtain ⟨before, after⟩ := List.forall_mem_append.mp steps
  obtain ⟨rfl, -⟩ := after _ (.head _)
  obtain ⟨place, named, -⟩ := (coherent.after earlier before).started
  rcases ran : ((bench.after earlier).dualStep (.addScalar summand scalar)).runOn
    ((bench.after earlier).sessionOf session) with ⟨fault | result, reached⟩
  · rw [perform_dual_of_error out named ran] at sum
    cases sum
  · rw [perform_dual_of_ok out named ran] at sum
    cases sum
    exact (Dual.gives_addScalar _ _ ran).2.2.2.mpr empty

/-- The number of partials of a variable is open exactly if the variable holds nothing, or
a sum of a dual number without partials and a scalar. -/
theorem slots_eq_none_iff {name label : String} {commands : List Command}
    (steps : ∀ command ∈ commands, command.session = name ∧ command.request.isStep = true)
    (key : String) :
    ((afterStart name label commands).dual key).slots = none ↔
      (afterStart name label commands).dual key = .zero ∨
        (afterStart name label []).GivenByEmptySum commands
          ((afterStart name label commands).dual key) := by
  have coherent : (afterStart name label []).Coherent name := coherent_start name label
  constructor
  · intro absent
    refine (coherent.open_after steps absent).imp_left ?_
    rintro ⟨other, same⟩
    exact same
  · rintro (unset | given)
    · rw [unset]
      rfl
    · exact coherent.slots_of_emptySum steps given

theorem perform_binary_of_ne (bench : Workbench) (name : String) (out : Option String)
    (operation : Dual.BinaryOperation) {x y : String}
    (differ : (bench.dual x).dims ≠ (bench.dual y).dims) :
    bench.perform name out (.dual (.binary operation x y)) =
      (.error (.unequalDims operation.name (bench.dual x).dims (bench.dual y).dims),
        bench) := by
  have kept := bench.studio.runStep_eq_of_same (bench.sessions.find? name)
    (operation.runOn_apply_of_ne differ _)
  simp only [perform, dualStep, kept]

/-- The destination is written back as it was. -/
theorem perform_assignDual_of_misfit (bench : Workbench) (name : String)
    (out : Option String) {x y : String} (misfit : ¬(bench.dual x).Fits (bench.dual y)) :
    bench.perform name out (.assignDual x y) =
      (.error (.unequalDims "assign" (bench.dual x).dims (bench.dual y).dims),
        bench.keepDual (some x) (bench.dual x)) := by
  have kept := bench.studio.runStep_eq_of_same (bench.sessions.find? name)
    (Dual.run_assign_of_not_fits misfit _)
  simp only [perform, kept]
  rfl

theorem Coherent.exists_assignDual (coherent : bench.Coherent name) (out : Option String)
    {x y : String} (fits : (bench.dual x).Fits (bench.dual y))
    (set : ∀ handle ∈ (bench.dual y).handles, handle.isSet = true) :
    ∃ given next, bench.perform name out (.assignDual x y) = (.ok (.dual given), next) ∧
      given.dims = (bench.dual y).dims := by
  obtain ⟨given, next, performed, -⟩ :=
    coherent.reading_assignDual Interpretation.indifferent out set fits
  obtain ⟨place, named, -⟩ := coherent.started
  rcases ran : ((bench.dual x).assign (bench.dual y)).run (bench.sessionOf name) with
    ⟨⟨result, outcome⟩, after⟩
  have same := performed.symm.trans (perform_assignDual out named ran)
  refine ⟨given, next, performed, ?_⟩
  cases outcome with
  | error fault => cases congrArg Prod.fst same
  | ok done =>
      cases congrArg Prod.fst same
      exact Dual.dims_of_assign fits ran

/-- Whatever has been recorded and assigned in a session, dual numbers with different
numbers of partials are refused, and nothing changes.  An assignment takes over the number
of the source if the destination was never set, and also if the destination is the sum of
a dual number without partials and a scalar. -/
theorem unequal_dims_refused (name label : String) (commands : List Command)
    (steps : ∀ command ∈ commands, command.session = name ∧
      command.request.isStep = true) :
    let bench := afterStart name label commands
    ∀ (x y : String) (out : Option String), (bench.dual x).dims ≠ (bench.dual y).dims →
      let exempt := bench.dual x = .zero ∨
        (afterStart name label []).GivenByEmptySum commands (bench.dual x)
      (∀ operation : Dual.BinaryOperation,
        bench.perform name out (.dual (.binary operation x y)) =
          (.error (.unequalDims operation.name (bench.dual x).dims (bench.dual y).dims),
            bench)) ∧
      (¬exempt → ∃ next, bench.perform name out (.assignDual x y) =
          (.error (.unequalDims "assign" (bench.dual x).dims (bench.dual y).dims), next) ∧
        next.studio = bench.studio ∧ next.handles = bench.handles ∧
        ∀ other, next.dual other = bench.dual other) ∧
      (exempt → (∀ handle ∈ (bench.dual y).handles, handle.isSet = true) →
        ∃ given next, bench.perform name out (.assignDual x y) =
          (.ok (.dual given), next) ∧ given.dims = (bench.dual y).dims) := by
  intro bench x y out differ exempt
  have coherent : bench.Coherent name := (coherent_start name label).after commands steps
  have absent_iff : (bench.dual x).slots = none ↔ exempt := slots_eq_none_iff steps x
  refine ⟨fun operation => bench.perform_binary_of_ne name out operation differ,
    fun fixed => ?_, fun opened set => ?_⟩
  · have misfit : ¬(bench.dual x).Fits (bench.dual y) :=
      not_or.mpr ⟨mt absent_iff.mp fixed, differ⟩
    refine ⟨_, bench.perform_assignDual_of_misfit name out misfit, rfl, rfl,
      fun other => ?_⟩
    rw [dual_keepDual]
    split
    next same => rw [same]
    next => rfl
  · exact coherent.exists_assignDual out (.inl (absent_iff.mpr opened)) set

def emptyCommands : List Command :=
  [⟨"s", some "x", .dual (.constant 1.0 0)⟩,
    ⟨"s", some "sum", .dual (.addScalar "x" (.literal 2.0))⟩,
    ⟨"s", some "multiple", .dual (.scale "x" (.literal 2.0))⟩,
    ⟨"s", some "y", .dual (.constant 3.0 1)⟩]

/-- Neither the sum nor the multiple has partials, but only the multiple insists on it. -/
theorem empty_sum_takes_over_dims :
    let bench := afterStart "s" "1" emptyCommands
    bench.perform "s" none (.dual (.binary .mul "sum" "y")) =
        (.error (.unequalDims "mul" 0 1), bench) ∧
      (∃ next, bench.perform "s" none (.assignDual "multiple" "y") =
          (.error (.unequalDims "assign" 0 1), next) ∧ next.studio = bench.studio) ∧
      ∃ given next, bench.perform "s" none (.assignDual "sum" "y") =
          (.ok (.dual given), next) ∧ given.dims = 1 := by
  intro bench
  have steps : ∀ command ∈ emptyCommands,
      command.session = "s" ∧ command.request.isStep = true := by decide
  obtain ⟨refused, -, assigned⟩ :=
    unequal_dims_refused "s" "1" emptyCommands steps "sum" "y" none (by decide)
  obtain ⟨-, misfit, -⟩ :=
    unequal_dims_refused "s" "1" emptyCommands steps "multiple" "y" none (by decide)
  have fixed : (bench.dual "multiple").slots ≠ none := Option.some_ne_none []
  obtain ⟨next, failed, kept, -⟩ :=
    misfit (mt (slots_eq_none_iff steps "multiple").mpr fixed)
  refine ⟨refused .mul, ⟨next, failed, kept⟩, ?_⟩
  exact assigned ((slots_eq_none_iff steps "sum").mp rfl) (by decide)

end Workbench

end CostTape
