import Mathlib.Algebra.Field.Rat
import Mathlib.Data.Fin.VecNotation
import Mathlib.Data.Fintype.Basic
import Mathlib.Tactic.FinCases
import Mathlib.Tactic.NormNum
import CostTape.Proofs.Dual.Differentiation
import CostTape.Proofs.Recording.Lifecycle

/-! Requests can be calculated at once, on values instead of handles.  What is
recorded for them computes the same. -/

namespace CostTape

universe u

open Workbench

/-- The values that variables stand for.  All dual numbers have `n` partials. -/
structure Variables (K : Type u) (n : Nat) where
  scalars : String → Option K
  duals : String → Option (DualNumber K n)

namespace Variables

inductive Result (K : Type u) (n : Nat) where
  | scalar (value : K)
  | dual (number : DualNumber K n)

variable {K : Type u} {n : Nat}

def empty : Variables K n :=
  ⟨fun _ => none, fun _ => none⟩

def keep (values : Variables K n) (out : Option String) (result : Result K n) :
    Variables K n :=
  match out, result with
  | none, _ => values
  | some name, .scalar value =>
      { values with scalars := Function.update values.scalars name (some value) }
  | some name, .dual number =>
      { values with duals := Function.update values.duals name (some number) }

variable (meaning : Interpretation K) (values : Variables K n)

def operand? : Operand → Option K
  | .named name => values.scalars name
  | .literal number => some (meaning.literal number)

def operation? (kind : Kind) (symbol : String) (operands : List Operand) : Option K :=
  (operands.mapM (values.operand? meaning)).map (meaning.operation kind symbol)

def scalar? : ScalarRequest → Option K
  | .constant number => some (meaning.literal number)
  | .parameter name => some (meaning.input name)
  | .output name value => values.operation? meaning .output name [value]
  | .nop => values.operation? meaning .nop "" []
  | .materialize value => values.operand? meaning value
  | .unary operator value =>
      values.operation? meaning operator.kind operator.symbol [value]
  | .binary operator left right =>
      values.operation? meaning operator.kind operator.symbol [left, right]
  | .call name operands => values.operation? meaning .call name operands
  | .ternary condition first second =>
      values.operation? meaning .call "ternary" [condition, first, second]
  | .copy value => values.operand? meaning value
  | .primal dual => (values.duals dual).map DualNumber.primal
  | .partialAt dual slot =>
      if inside : 0 ≤ slot ∧ slot.toNat < n then
        (values.duals dual).map fun number => number.partials ⟨slot.toNat, inside.2⟩
      else
        none

variable [Field K]

/-- Partials are created only in numbers that an address space can hold. -/
def dual? : DualRequest → Option (DualNumber K n)
  | .seeded number slot dims =>
      if inside : (0 ≤ slot ∧ slot.toNat < n) ∧ dims = n ∧ n ≤ Dual.maximalDims then
        some (.seeded (meaning.literal number) ⟨slot.toNat, inside.1.2⟩)
      else
        none
  | .constant number dims =>
      if dims = n ∧ n ≤ Dual.maximalDims then
        some (.constant (meaning.literal number))
      else
        none
  | .ofHandle primal dims =>
      if dims = n ∧ n ≤ Dual.maximalDims then
        (values.operand? meaning primal).map .constant
      else
        none
  | .literal _ _ => none
  | .unary operation dual => (values.duals dual).map (·.unary meaning operation)
  | .binary operation left right => do
      let x ← values.duals left
      let y ← values.duals right
      some (x.binary y operation)
  | .scale dual factor => do
      let x ← values.duals dual
      let a ← values.operand? meaning factor
      some (x.scale a)
  | .addScalar dual scalar => do
      let x ← values.duals dual
      let a ← values.operand? meaning scalar
      some (x.addScalar a)
  | .copy dual => values.duals dual

/-- Calculates a request.  Those that assign, or that concern sessions, have no value. -/
def result? : Request → Option (Result K n)
  | .scalar request => (values.scalar? meaning request).map .scalar
  | .dual request => (values.dual? meaning request).map .dual
  | _ => none

/-- The request divides by a dual number whose value is zero. -/
def DividesByZero : Request → Prop
  | .dual (.binary .div _ right) =>
      ∃ number, values.duals right = some number ∧ number.primal = 0
  | _ => False

end Variables

open Variables

variable {K : Type u} {n : Nat}

/-- Calculates commands to one session in turn, each with the results of the
earlier ones. -/
inductive Calculates [Field K] (meaning : Interpretation K) (name : String) :
    Variables K n → List Command → List (Result K n) → Prop
  | nil {values : Variables K n} : Calculates meaning name values [] []
  | cons {values : Variables K n} {out : Option String} {request : Request}
      {result : Result K n} {commands : List Command} {results : List (Result K n)}
      (calculated : values.result? meaning request = some result)
      (regular : ¬values.DividesByZero request)
      (rest : Calculates meaning name (values.keep out result) commands results) :
      Calculates meaning name values (⟨name, out, request⟩ :: commands)
        (result :: results)

namespace Workbench

open Recording

/-- The variables of the workbench stand for the values, once the trace is executed. -/
structure Holds (meaning : Interpretation K) (bench : Workbench) (graph : Graph)
    (values : Variables K n) : Prop where
  scalars : ∀ (name : String) (value : K), values.scalars name = some value →
    (bench.handle (.named name)).Denotes meaning graph value
  duals : ∀ (name : String) (number : DualNumber K n), values.duals name = some number →
    (bench.dual name).Denotes meaning graph number

variable {meaning : Interpretation K} {bench : Workbench} {session : Session}
  {values : Variables K n}

namespace Holds

variable {graph : Graph}

theorem operand (holds : bench.Holds meaning graph values) {operand : Operand} {value : K}
    (calculated : values.operand? meaning operand = some value) :
    (bench.handle operand).Denotes meaning graph value := by
  cases operand with
  | named name => exact holds.scalars name value calculated
  | literal number => exact Option.some.inj calculated

theorem operands (holds : bench.Holds meaning graph values) {operands : List Operand}
    {results : List K}
    (calculated : operands.mapM (values.operand? meaning) = some results) :
    List.Forall₂ (Handle.Denotes meaning graph) (operands.map bench.handle) results := by
  induction operands generalizing results with
  | nil =>
      cases calculated
      exact .nil
  | cons operand operands induction =>
      simp only [List.mapM_cons, Option.bind_eq_bind,
        Option.bind_eq_some_iff] at calculated
      obtain ⟨value, first, others, rest, same⟩ := calculated
      cases same
      exact .cons (holds.operand first) (induction rest)

end Holds

theorem yields_operation {kind : Kind} {symbol : String} {operands : List Operand}
    {value : K} (isOpen : session.IsOpen)
    (holds : bench.Holds meaning session.graph values)
    (computes : kind.isOperation = true)
    (calculated : values.operation? meaning kind symbol operands = some value) :
    (apply kind symbol (operands.map bench.handle)).Yields meaning session
      fun graph handle => handle.Denotes meaning graph value := by
  obtain ⟨results, collected, rfl⟩ := Option.map_eq_some_iff.mp calculated
  exact yields_apply isOpen computes (holds.operands collected)

theorem yields_scalarStep {request : ScalarRequest} {value : K} (isOpen : session.IsOpen)
    (holds : bench.Holds meaning session.graph values)
    (calculated : values.scalar? meaning request = some value) :
    (bench.scalarStep request).Yields meaning session fun graph handle =>
      handle.Denotes meaning graph value := by
  cases request with
  | constant number =>
      cases calculated
      exact (yields_constant isOpen number).imp fun _ _ _ recorded => recorded.2.2
  | parameter name =>
      cases calculated
      exact yields_parameter isOpen name
  | output name value => exact yields_operation isOpen holds rfl calculated
  | nop => exact yields_operation isOpen holds rfl calculated
  | materialize value => exact yields_materialize isOpen (holds.operand calculated)
  | unary operator value =>
      exact yields_operation isOpen holds (by cases operator <;> rfl) calculated
  | binary operator left right =>
      exact yields_operation isOpen holds (by cases operator <;> rfl) calculated
  | call name operands => exact yields_operation isOpen holds rfl calculated
  | ternary condition first second => exact yields_operation isOpen holds rfl calculated
  | copy value => exact .pure isOpen (holds.operand calculated)
  | primal name =>
      obtain ⟨number, found, rfl⟩ := Option.map_eq_some_iff.mp calculated
      exact .pure isOpen (holds.duals name number found).primal
  | partialAt name slot =>
      simp only [scalar?] at calculated
      split at calculated
      · rename_i inside
        obtain ⟨number, found, rfl⟩ := Option.map_eq_some_iff.mp calculated
        obtain ⟨handle, read, denotes⟩ :=
          (holds.duals name number found).partialAt ⟨slot.toNat, inside.2⟩
        rw [Int.toNat_of_nonneg inside.1] at read
        simp only [scalarStep, read]
        exact .pure isOpen denotes
      · cases calculated

def sessionOf (bench : Workbench) (name : String) : Session :=
  bench.studio.session (bench.sessions.find? name)

def answers (bench : Workbench) : List Command → List (Except RecordingFault Answer)
  | [] => []
  | command :: commands =>
      let (answer, next) := bench.perform command.session command.out command.request
      answer :: next.answers commands

/-- What the answer stands for once the trace has been executed. -/
def Answer.Denotes (meaning : Interpretation K) (graph : Graph) :
    Answer → Result K n → Prop
  | .handle given, .scalar value => given.Denotes meaning graph value
  | .dual given, .dual number => given.Denotes meaning graph number
  | _, _ => False

theorem Answer.Denotes.extend {before after : Session} {answer : Answer}
    {result : Result K n} (extended : before.Extends meaning after)
    (denotes : answer.Denotes meaning before.graph result) :
    answer.Denotes meaning after.graph result := by
  cases answer <;> cases result <;> first
    | exact extended.denotes denotes
    | exact extended.denotesDual denotes
    | exact denotes.elim

structure Agrees (meaning : Interpretation K) (name : String) (bench : Workbench)
    (values : Variables K n) : Prop where
  started : ∃ place, bench.sessions.find? name = some place ∧
    place < bench.studio.sessions.size
  isOpen : (bench.sessionOf name).IsOpen
  holds : bench.Holds meaning (bench.sessionOf name).graph values

def recorded (bench : Workbench) (place : Nat) (after : Session) : Workbench :=
  { bench with
    studio := { bench.studio with
      sessions := bench.studio.sessions.setIfInBounds place after } }

theorem sessionOf_recorded {name : String} {place : Nat} (after : Session)
    (named : bench.sessions.find? name = some place)
    (inside : place < bench.studio.sessions.size) :
    (bench.recorded place after).sessionOf name = after := by
  show (bench.recorded place after).studio.session (bench.sessions.find? name) = after
  rw [named]
  simp [recorded, Studio.session, inside]

theorem perform_scalar_of_ok {name : String} {place : Nat} {request : ScalarRequest}
    {handle : Handle} {after : Session} (out : Option String)
    (named : bench.sessions.find? name = some place)
    (ran : (bench.scalarStep request).runOn (bench.sessionOf name) =
      (.ok handle, after)) :
    bench.perform name out (.scalar request) =
      (.ok (.handle handle), (bench.recorded place after).keepHandle out handle) := by
  rw [sessionOf, named] at ran
  simp only [perform, named, Studio.runStep_some,
    show (bench.scalarStep request).run.run (bench.studio.session (some place)) =
      _ from ran]
  rfl

theorem perform_dual_of_ok {name : String} {place : Nat} {request : DualRequest}
    {dual : Dual} {after : Session} (out : Option String)
    (named : bench.sessions.find? name = some place)
    (ran : (bench.dualStep request).runOn (bench.sessionOf name) = (.ok dual, after)) :
    bench.perform name out (.dual request) =
      (.ok (.dual dual), (bench.recorded place after).keepDual out dual) := by
  rw [sessionOf, named] at ran
  simp only [perform, named, Studio.runStep_some,
    show (bench.dualStep request).run.run (bench.studio.session (some place)) =
      _ from ran]
  rfl

theorem Holds.keepHandle {graph : Graph} {handle : Handle} {value : K}
    (holds : bench.Holds meaning graph values) (out : Option String)
    (denotes : handle.Denotes meaning graph value) :
    (bench.keepHandle out handle).Holds meaning graph
      (values.keep out (.scalar value)) := by
  cases out with
  | none => exact holds
  | some name =>
      refine ⟨fun other found same => ?_, holds.duals⟩
      simp only [keep, Function.update_apply] at same
      simp only [Workbench.keepHandle, Workbench.handle, Names.find?_assign]
      by_cases here : other = name
      · rw [if_pos here] at same ⊢
        cases same
        exact denotes
      · rw [if_neg here] at same ⊢
        exact holds.scalars other found same

theorem Holds.keepDual {graph : Graph} {dual : Dual} {number : DualNumber K n}
    (holds : bench.Holds meaning graph values) (out : Option String)
    (denotes : dual.Denotes meaning graph number) :
    (bench.keepDual out dual).Holds meaning graph (values.keep out (.dual number)) := by
  cases out with
  | none => exact holds
  | some name =>
      refine ⟨holds.scalars, fun other found same => ?_⟩
      simp only [keep, Function.update_apply] at same
      simp only [Workbench.keepDual, Workbench.dual, Names.find?_assign]
      by_cases here : other = name
      · rw [if_pos here] at same ⊢
        cases same
        exact denotes
      · rw [if_neg here] at same ⊢
        exact holds.duals other found same

theorem Holds.recorded (place : Nat) {after : Session} {name : String}
    (holds : bench.Holds meaning (bench.sessionOf name).graph values)
    (extended : (bench.sessionOf name).Extends meaning after) :
    (bench.recorded place after).Holds meaning after.graph values where
  scalars := fun other value found => extended.denotes (holds.scalars other value found)
  duals := fun other number found => extended.denotesDual (holds.duals other number found)

theorem sessionOf_of_recorded {next : Workbench} {name : String} {place : Nat}
    {after : Session} (named : bench.sessions.find? name = some place)
    (inside : place < bench.studio.sessions.size)
    (sameSessions : next.sessions = bench.sessions)
    (sameStudio : next.studio = (bench.recorded place after).studio) :
    next.sessionOf name = after ∧ ∃ place, next.sessions.find? name = some place ∧
      place < next.studio.sessions.size := by
  refine ⟨?_, place, ?_, ?_⟩
  · rw [sessionOf, sameSessions, sameStudio]
    exact sessionOf_recorded after named inside
  · rw [sameSessions]
    exact named
  · rw [sameStudio]
    simpa [recorded] using inside

theorem agrees_of_recorded {next : Workbench} {name : String} {place : Nat}
    {after : Session} (named : bench.sessions.find? name = some place)
    (inside : place < bench.studio.sessions.size)
    (sameSessions : next.sessions = bench.sessions)
    (sameStudio : next.studio = (bench.recorded place after).studio)
    (isOpen : after.IsOpen) (holds : next.Holds meaning after.graph values) :
    next.sessionOf name = after ∧ next.Agrees meaning name values := by
  obtain ⟨reached, started⟩ := sessionOf_of_recorded named inside sameSessions sameStudio
  refine ⟨reached, started, ?_, ?_⟩
  · rw [reached]
    exact isOpen
  · rw [reached]
    exact holds

variable [Field K]

theorem yields_dualStep (arithmetic : meaning.IsArithmetic) {request : DualRequest}
    {number : DualNumber K n} (isOpen : session.IsOpen)
    (holds : bench.Holds meaning session.graph values)
    (calculated : values.dual? meaning request = some number)
    (regular : ¬values.DividesByZero (.dual request)) :
    (bench.dualStep request).Yields meaning session fun graph dual =>
      dual.Denotes meaning graph number := by
  cases request with
  | seeded value slot dims =>
      simp only [dual?] at calculated
      split at calculated
      · rename_i inside
        obtain ⟨⟨nonnegative, below⟩, rfl, inRange⟩ := inside
        cases calculated
        have seeding := Dual.yields_seeded arithmetic value ⟨slot.toNat, below⟩ isOpen
          inRange
        rw [Int.toNat_of_nonneg nonnegative] at seeding
        exact seeding
      · cases calculated
  | constant value dims =>
      simp only [dual?] at calculated
      split at calculated
      · rename_i inside
        obtain ⟨rfl, inRange⟩ := inside
        cases calculated
        exact Dual.yields_constant arithmetic value isOpen inRange
      · cases calculated
  | ofHandle primal dims =>
      simp only [dual?] at calculated
      split at calculated
      · rename_i inside
        obtain ⟨rfl, inRange⟩ := inside
        obtain ⟨value, found, rfl⟩ := Option.map_eq_some_iff.mp calculated
        exact Dual.yields_ofHandle arithmetic isOpen inRange (holds.operand found)
      · cases calculated
  | literal primal partials => cases calculated
  | unary operation name =>
      obtain ⟨x, found, rfl⟩ := Option.map_eq_some_iff.mp calculated
      exact operation.yields_apply arithmetic isOpen (holds.duals name x found)
  | binary operation left right =>
      simp only [dual?, Option.bind_eq_bind, Option.bind_eq_some_iff] at calculated
      obtain ⟨x, foundLeft, y, foundRight, same⟩ := calculated
      cases same
      refine operation.yields_apply arithmetic isOpen (holds.duals left x foundLeft)
        (holds.duals right y foundRight) ?_
      rintro rfl zero
      exact regular ⟨y, foundRight, zero⟩
  | scale name factor =>
      simp only [dual?, Option.bind_eq_bind, Option.bind_eq_some_iff] at calculated
      obtain ⟨x, found, a, foundFactor, same⟩ := calculated
      cases same
      exact Dual.yields_scale arithmetic isOpen (holds.duals name x found)
        (holds.operand foundFactor)
  | addScalar name scalar =>
      simp only [dual?, Option.bind_eq_bind, Option.bind_eq_some_iff] at calculated
      obtain ⟨x, found, a, foundScalar, same⟩ := calculated
      cases same
      exact Dual.yields_addScalar arithmetic isOpen (holds.duals name x found)
        (holds.operand foundScalar)
  | copy name => exact .pure isOpen (holds.duals name number calculated)

theorem Agrees.perform (arithmetic : meaning.IsArithmetic) {name : String}
    {request : Request} {result : Result K n} (agrees : bench.Agrees meaning name values)
    (out : Option String) (calculated : values.result? meaning request = some result)
    (regular : ¬values.DividesByZero request) :
    ∃ answer next, bench.perform name out request = (.ok answer, next) ∧
      (bench.sessionOf name).Extends meaning (next.sessionOf name) ∧
      answer.Denotes meaning (next.sessionOf name).graph result ∧
      next.Agrees meaning name (values.keep out result) := by
  obtain ⟨place, named, inside⟩ := agrees.started
  cases request with
  | scalar request =>
      obtain ⟨value, found, rfl⟩ := Option.map_eq_some_iff.mp calculated
      obtain ⟨handle, after, ran, extended, denotes⟩ :=
        yields_scalarStep agrees.isOpen agrees.holds found
      have kept := (agrees.holds.recorded place extended).keepHandle out denotes
      obtain ⟨reached, further⟩ := agrees_of_recorded named inside
        (by cases out <;> rfl) (by cases out <;> rfl) extended.isOpen kept
      refine ⟨_, _, perform_scalar_of_ok out named ran, ?_, ?_, further⟩
      · rw [reached]
        exact extended
      · rw [reached]
        exact denotes
  | dual request =>
      obtain ⟨number, found, rfl⟩ := Option.map_eq_some_iff.mp calculated
      obtain ⟨dual, after, ran, extended, denotes⟩ :=
        yields_dualStep arithmetic agrees.isOpen agrees.holds found regular
      have kept := (agrees.holds.recorded place extended).keepDual out denotes
      obtain ⟨reached, further⟩ := agrees_of_recorded named inside
        (by cases out <;> rfl) (by cases out <;> rfl) extended.isOpen kept
      refine ⟨_, _, perform_dual_of_ok out named ran, ?_, ?_, further⟩
      · rw [reached]
        exact extended
      · rw [reached]
        exact denotes
  | _ => cases calculated

theorem Agrees.answers (arithmetic : meaning.IsArithmetic) {name : String}
    {commands : List Command} {results : List (Result K n)}
    (agrees : bench.Agrees meaning name values)
    (calculates : Calculates meaning name values commands results) :
    (bench.sessionOf name).Extends meaning ((bench.after commands).sessionOf name) ∧
      List.Forall₂ (fun answer result => ∃ given, answer = .ok given ∧
        given.Denotes meaning ((bench.after commands).sessionOf name).graph result)
        (bench.answers commands) results := by
  induction calculates generalizing bench with
  | nil => exact ⟨.refl agrees.isOpen, .nil⟩
  | cons calculated regular rest induction =>
      rename_i out request result commands results
      obtain ⟨answer, next, performed, extended, denotes, further⟩ :=
        agrees.perform arithmetic out calculated regular
      -- Later commands only extend the trace, so the first answer keeps its value.
      obtain ⟨beyond, answered⟩ := induction further
      simp only [Workbench.answers, after_cons, performed]
      exact ⟨extended.trans beyond, .cons ⟨answer, rfl, denotes.extend beyond⟩ answered⟩

/-- Whatever was done before, commands to the session that records succeed where they
can be calculated.  Once the whole trace is executed, the slots behind every scalar
and every dual number that they gave hold the calculated values and derivatives. -/
theorem answers_denote_calculated_results {meaning : Interpretation K}
    (arithmetic : meaning.IsArithmetic) (handles : Names Handle) (duals : Names Dual)
    (earlier commands : List Command) (name : String) (results : List (Result K n))
    (active : ((withVariables handles duals).after earlier).NamesActive name)
    (calculates : Calculates meaning name (.empty : Variables K n) commands results) :
    List.Forall₂
      (fun answer result => ∃ given, answer = .ok given ∧
        given.Denotes meaning
          ((((withVariables handles duals).after earlier).after commands).sessionOf
            name).graph result)
      (((withVariables handles duals).after earlier).answers commands) results := by
  have consistent := consistent_after (withVariables handles duals) earlier
    Studio.consistent_empty
  obtain ⟨place, named, records⟩ := active
  have inside := consistent.active_started place records
  have found := Studio.session_eq_of_inside inside
  have recording := (consistent.recording_iff place _ found).mpr records
  have agrees : ((withVariables handles duals).after earlier).Agrees meaning name
      (.empty : Variables K n) := by
    refine ⟨⟨place, named, inside⟩, ?_, ?_⟩
    · rw [sessionOf, named]
      refine ⟨recording, ?_⟩
      rw [consistent.frozen_eq place _ found]
      simpa [Session.isRecording] using recording
    · constructor
      · intro other value absent
        cases absent
      · intro other number absent
        cases absent
  exact (agrees.answers arithmetic calculates).2

/-- Rational arithmetic, with the literals that the example below needs. -/
def rational : Interpretation ℚ where
  blank := fun _ => 0
  literal := fun number =>
    if number = 0.0 then 0 else if number = 1.0 then 1 else if number = 2.0 then 2 else 3
  input := fun _ => 0
  operation
    | .unary, "-", [a] => -a
    | .binary, "+", [a, b] => a + b
    | .binary, "-", [a, b] => a - b
    | .binary, "*", [a, b] => a * b
    | .binary, "/", [a, b] => a / b
    | _, _, _ => 0

theorem isArithmetic_rational : rational.IsArithmetic where
  zero := rfl
  one := by
    have apart : (1.0 : Float) ≠ 0.0 := by decide
    simp [rational, apart]
  two := by
    have apart : (2.0 : Float) ≠ 0.0 ∧ (2.0 : Float) ≠ 1.0 := by decide
    simp [rational, apart]
  neg := fun _ => rfl
  add := fun _ _ => rfl
  sub := fun _ _ => rfl
  mul := fun _ _ => rfl
  div := fun _ _ => rfl

/-- Differentiates `x * x / y` at `x = 3` and `y = 2`. -/
def quotientCommands : List Command :=
  [⟨"s", some "x", .dual (.seeded 3.0 0 2)⟩, ⟨"s", some "y", .dual (.seeded 2.0 1 2)⟩,
    ⟨"s", some "p", .dual (.binary .mul "x" "x")⟩,
    ⟨"s", some "q", .dual (.binary .div "p" "y")⟩]

/-- The quotient is recorded with the value `9 / 2` and the partials `3` and `-9 / 4`. -/
theorem recorded_quotient_denotes :
    List.Forall₂
      (fun answer result => ∃ given, answer = .ok given ∧
        given.Denotes rational
          ((((withVariables [] []).after [⟨"s", none, .start "1"⟩]).after
            quotientCommands).sessionOf "s").graph result)
      (((withVariables [] []).after [⟨"s", none, .start "1"⟩]).answers quotientCommands)
      [.dual (.seeded 3 0), .dual (.seeded 2 1), .dual ⟨9, ![6, 0]⟩,
        .dual (⟨9 / 2, ![3, -9 / 4]⟩ : DualNumber ℚ 2)] := by
  have three : rational.literal 3.0 = 3 := by
    have apart : (3.0 : Float) ≠ 0.0 ∧ (3.0 : Float) ≠ 1.0 ∧ (3.0 : Float) ≠ 2.0 := by
      decide
    simp [rational, apart]
  have product : (DualNumber.seeded 3 0 : DualNumber ℚ 2).binary (.seeded 3 0) .mul =
      ⟨9, ![6, 0]⟩ := by
    ext k
    · norm_num [DualNumber.binary, DualNumber.seeded]
    · fin_cases k <;> norm_num [DualNumber.binary, DualNumber.seeded]
  have quotient : (⟨9, ![6, 0]⟩ : DualNumber ℚ 2).binary (.seeded 2 1) .div =
      ⟨9 / 2, ![3, -9 / 4]⟩ := by
    ext k
    · norm_num [DualNumber.binary, DualNumber.seeded]
    · fin_cases k <;> norm_num [DualNumber.binary, DualNumber.seeded]
  have calculates : Calculates rational "s" (.empty : Variables ℚ 2) quotientCommands
      [.dual (.seeded 3 0), .dual (.seeded 2 1), .dual ⟨9, ![6, 0]⟩,
        .dual ⟨9 / 2, ![3, -9 / 4]⟩] := by
    refine .cons ?_ id (.cons ?_ id (.cons ?_ id (.cons ?_ ?_ .nil)))
    · rw [← three]
      rfl
    · rw [← isArithmetic_rational.two]
      rfl
    · rw [← product]
      rfl
    · rw [← quotient]
      rfl
    · rintro ⟨number, found, zero⟩
      cases found
      cases zero
  exact answers_denote_calculated_results isArithmetic_rational [] []
    [⟨"s", none, .start "1"⟩] quotientCommands "s" _ ⟨0, rfl, rfl⟩ calculates

end Workbench

end CostTape
