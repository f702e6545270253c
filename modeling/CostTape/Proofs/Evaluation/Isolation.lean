import CostTape.Proofs.Recording.Lifecycle
import CostTape.Proofs.Script.Confinement
import CostTape.Report.Evaluator

/-! Evaluations do not influence each other, and each counts in full or not at all. -/

namespace CostTape

namespace Studio

variable {studio : Studio}

/-- A step in a session that is started for it and stopped after it. -/
theorem stop_after_step (idle : studio.activeSession? = none) (label : String)
    {step : StateM Session α} {result : α} {session : Session}
    (ran : step.run (.fresh label) = (result, session))
    (recording : session.isRecording = true) :
    ∃ place started recorded stopped, studio.start label = .ok (place, started) ∧
      started.runStep (some place) step = (result, recorded) ∧
      recorded.stop (some place) = .ok (session.stop.graph, stopped) ∧
      stopped.activeSession? = none := by
  let place := studio.sessions.size
  let started : Studio := ⟨studio.sessions.push (.fresh label), some place⟩
  let recorded : Studio :=
    { started with sessions := started.sessions.setIfInBounds place session }
  have entered : started.session (some place) = .fresh label := by
    simp [Studio.session, started, place]
  have left : recorded.session (some place) = session := by
    simp [Studio.session, recorded, started, place]
  have can : recorded.CanStop place := ⟨by rw [left]; exact recording, rfl⟩
  let stopped : Studio := ⟨recorded.sessions.setIfInBounds place session.stop, none⟩
  refine ⟨place, started, recorded, stopped, ?_, ?_, ?_, rfl⟩
  · unfold start
    rw [idle]
  · rw [runStep_some, entered, ran]
  · rw [stop_of_canStop can, left]

end Studio

namespace Evaluation

/-- The interpreter comes back from the script; it is not asked to run a blank one. -/
def Ends (interpreter : Interpreter) (source : String) : Prop :=
  isBlank source = false → ((interpreter (Spelling.respell source)).run (.fresh "")).1 ≠
    none

instance (interpreter : Interpreter) : DecidablePred (Ends interpreter) :=
  fun _ => inferInstanceAs (Decidable (_ = _ → _ ≠ _))

/-- The outcome of a source in a session of its own. -/
def soleOutcome (limit : Duration) (interpreter : Interpreter) (source : String) :
    Except Fault Outcome :=
  if isBlank source then
    .ok ⟨some Graph.empty.freeze, []⟩
  else
    match (interpreter (Spelling.respell source)).run (.fresh "") with
    | (none, _) => .error (.timedOut limit)
    | (some ending, session) => outcomeOf session.graph.freeze ending

variable {studio : Studio} {interpreter : Interpreter}

/-- Whatever the script does, what it has recorded does not depend on how the session is
called, and at its end the session can be stopped. -/
theorem evaluate_of_idle (limit : Duration)
    (acts : ∀ text, Script.ActsThroughBuiltins (interpreter text))
    (idle : studio.activeSession? = none) (label source : String) :
    (evaluate limit studio label source interpreter).outcome =
        soleOutcome limit interpreter source ∧
      (Ends interpreter source →
        (evaluate limit studio label source interpreter).studio.activeSession? =
          none) := by
  unfold evaluate soleOutcome Ends
  cases isBlank source with
  | true => exact ⟨rfl, fun _ => idle⟩
  | false =>
      have confined := (acts (Spelling.respell source)).confined
      -- Only that the script is confined counts.
      generalize interpreter (Spelling.respell source) = script at confined ⊢
      have isOpen := confined.isOpen (.fresh "") ⟨rfl, rfl⟩
      have labelled := confined.relabel (.fresh "") label
      rcases ran : script.run (.fresh "") with ⟨ending, session⟩
      rw [ran] at isOpen labelled
      obtain ⟨place, started, recorded, stopped, start, step, stop, idleAfter⟩ :=
        Studio.stop_after_step idle label labelled isOpen.recording
      simp only [Bool.false_eq_true, if_false, start, step]
      cases ending with
      | none => exact ⟨rfl, fun ends => absurd rfl (ends trivial)⟩
      | some ending =>
          simp only [stop]
          exact ⟨rfl, fun _ => idleAfter⟩

theorem evaluate_of_active (limit : Duration) {session : Session}
    (active : studio.activeSession? = some session) (label : String) {source : String}
    (program : isBlank source = false) :
    evaluate limit studio label source interpreter =
      ⟨.error (.session (.sessionActive session.label)), studio, []⟩ := by
  have refused : studio.start label = .error (.sessionActive session.label) := by
    unfold Studio.start
    rw [active]
  unfold evaluate
  simp only [program, Bool.false_eq_true, if_false, refused]

end Evaluation

namespace Report

/-- Errors and nothing else, or a frozen graph with all that is found in it. -/
def IsAllOrNothing (report : Report) : Prop :=
  (report.errors ≠ [] ∧ report.graph.nodes = #[] ∧ report.findings = []) ∨
    (report.errors = [] ∧ report.graph.frozen = true ∧ ∃ assessment,
      report.graph.analyse = .ok assessment ∧
      report.findings = assessment.flaws.map (fun flaw => flaw.finding.remark) ++
        assessment.advice.map fun advice => advice.finding.remark)

theorem isAllOrNothing_failed {errors : List Diagnostic} (nonempty : errors ≠ []) :
    (failed errors).IsAllOrNothing :=
  .inl ⟨nonempty, rfl, rfl⟩

theorem isAllOrNothing_recorded (graph : Graph) :
    (recorded graph.freeze).IsAllOrNothing := by
  refine .inr ⟨rfl, rfl, graph.freeze.assess, graph.freeze.analyse_eq_ok, ?_⟩
  simp [recorded, Graph.Assessment.findings, Function.comp_def]

theorem isAllOrNothing_soleOutcome (limit : Duration)
    (interpreter : Evaluation.Interpreter) (source : String) :
    (ofOutcome (Evaluation.soleOutcome limit interpreter source)).IsAllOrNothing := by
  unfold Evaluation.soleOutcome
  split
  · exact isAllOrNothing_recorded .empty
  · rcases (interpreter (Spelling.respell source)).run (.fresh "") with
      ⟨_ | ending, session⟩
    · exact isAllOrNothing_failed (List.cons_ne_nil _ _)
    · cases ending with
      | done => exact isAllOrNothing_recorded session.graph
      | failed message => exact isAllOrNothing_failed (List.cons_ne_nil _ _)
      | broken message => exact isAllOrNothing_failed (List.cons_ne_nil _ _)

end Report

namespace Evaluator

open Script (ActsThroughBuiltins)

variable {evaluator : Evaluator}

theorem evaluate_of_idle (acts : ∀ text, ActsThroughBuiltins (evaluator.interpreter text))
    (idle : evaluator.studio.activeSession? = none) (label source : String) :
    (evaluator.evaluate label source).1 =
        .ofOutcome (Evaluation.soleOutcome evaluator.limit evaluator.interpreter source) ∧
      (Evaluation.Ends evaluator.interpreter source →
        (evaluator.evaluate label source).2.studio.activeSession? = none) := by
  obtain ⟨outcome, idleAfter⟩ :=
    Evaluation.evaluate_of_idle evaluator.limit acts idle label source
  refine ⟨?_, idleAfter⟩
  unfold evaluate
  simp only [Evaluation.await, if_true, outcome]

theorem evaluateAll_of_idle
    (acts : ∀ text, ActsThroughBuiltins (evaluator.interpreter text))
    (idle : evaluator.studio.activeSession? = none) (label : Nat → String)
    {sources : List String}
    (ends : ∀ source ∈ sources, Evaluation.Ends evaluator.interpreter source) :
    (evaluator.evaluateAll label sources).1 = sources.map (fun source =>
        .ofOutcome (Evaluation.soleOutcome evaluator.limit evaluator.interpreter
          source)) ∧
      (evaluator.evaluateAll label sources).2.studio.activeSession? = none := by
  induction sources generalizing evaluator with
  | nil => exact ⟨rfl, idle⟩
  | cons source sources induction =>
      obtain ⟨report, idleAfter⟩ := evaluate_of_idle acts idle
        (label evaluator.generation) source
      obtain ⟨reports, idleLast⟩ := @induction (evaluator.evaluate _ source).2 acts
        (idleAfter (ends source List.mem_cons_self))
        fun source later => ends source (List.mem_cons_of_mem _ later)
      exact ⟨congrArg₂ List.cons report reports, idleLast⟩

theorem evaluate_of_active {session : Session}
    (active : evaluator.studio.activeSession? = some session) (label : String)
    {source : String} (program : Evaluation.isBlank source = false) :
    (evaluator.evaluate label source).1 =
        .failed [⟨0, 0, (RecordingFault.sessionActive session.label).message⟩] ∧
      (evaluator.evaluate label source).2.studio = evaluator.studio := by
  unfold evaluate
  rw [Evaluation.evaluate_of_active evaluator.limit active label program]
  simp only [Evaluation.await, if_true, and_true]
  rfl

theorem evaluate_of_blank (evaluator : Evaluator) (label : String) {source : String}
    (blank : Evaluation.isBlank source = true) :
    (evaluator.evaluate label source).1 = .recorded Graph.empty.freeze := by
  unfold evaluate Evaluation.evaluate
  simp only [Evaluation.await, if_true, blank]
  rfl

theorem isAllOrNothing_evaluate
    (acts : ∀ text, ActsThroughBuiltins (evaluator.interpreter text))
    (label source : String) : (evaluator.evaluate label source).1.IsAllOrNothing := by
  cases active : evaluator.studio.activeSession? with
  | none =>
      rw [(evaluate_of_idle acts active label source).1]
      exact Report.isAllOrNothing_soleOutcome _ _ _
  | some session =>
      cases blank : Evaluation.isBlank source with
      | true =>
          rw [evaluate_of_blank evaluator label blank]
          exact Report.isAllOrNothing_recorded .empty
      | false =>
          rw [(evaluate_of_active active label blank).1]
          exact Report.isAllOrNothing_failed (List.cons_ne_nil _ _)

/-- With any interpreter that acts through the builtin functions alone, sources
evaluated one after the other where no session is active get the reports that each would
get alone, and leave no session active, whatever their sessions are called; the
interpreter has to come back from each.  Every report is all or nothing.  While another
session is active, a source that is not blank gets one error, and all sessions stay as
they are. -/
theorem evaluations_are_isolated (evaluator : Evaluator)
    (acts : ∀ text, ActsThroughBuiltins (evaluator.interpreter text)) :
    (∀ (label : Nat → String) (sources : List String),
      evaluator.studio.activeSession? = none →
      (∀ source ∈ sources, Evaluation.Ends evaluator.interpreter source) →
      (∀ other : String, (evaluator.evaluateAll label sources).1 =
        sources.map fun source =>
          ((start evaluator.limit evaluator.interpreter).evaluate other source).1) ∧
      (evaluator.evaluateAll label sources).2.studio.activeSession? = none) ∧
    (∀ label source : String, (evaluator.evaluate label source).1.IsAllOrNothing) ∧
    ∀ (label source : String) (session : Session),
      evaluator.studio.activeSession? = some session → Evaluation.isBlank source = false →
      (evaluator.evaluate label source).1.errors.length = 1 ∧
        (evaluator.evaluate label source).2.studio = evaluator.studio := by
  refine ⟨fun label sources idle ends => ?_, isAllOrNothing_evaluate acts,
    fun label source session active program => ?_⟩
  · obtain ⟨reports, idleLast⟩ := evaluateAll_of_idle acts idle label ends
    let first := start evaluator.limit evaluator.interpreter
    have idleStart : first.studio.activeSession? = none := rfl
    refine ⟨fun other => reports.trans (List.map_congr_left fun source _ => ?_), idleLast⟩
    exact (@evaluate_of_idle first acts idleStart other source).1.symm
  · obtain ⟨report, same⟩ := evaluate_of_active active label program
    exact ⟨congrArg (fun report : Report => report.errors.length) report, same⟩

/-- An evaluator beside a session that is not its own. -/
def busy : Evaluator :=
  { start Evaluation.defaultLimit with
    studio := ⟨#[.fresh "other"], some 0⟩
    generation := 3 }

theorem isolated_beside_open_session :
    let evaluator := start Evaluation.defaultLimit
    let sources := ["(output \"y\" (param \"x\"))", "(neg", " "]
    evaluator.studio.activeSession? = none ∧
      (∀ source ∈ sources, Evaluation.Ends evaluator.interpreter source) ∧
      ((evaluator.evaluateAll toString sources).1 = sources.map fun source =>
        (evaluator.evaluate "" source).1) ∧
      (evaluator.evaluateAll toString sources).2.studio.activeSession? = none ∧
      busy.studio.activeSession? = some (.fresh "other") ∧
      (busy.evaluate "own" "(nop)").1.errors.length = 1 ∧
      (busy.evaluate "own" "(nop)").2.studio = busy.studio := by
  intro evaluator sources
  have acts := Script.acts_interpreter Evaluation.defaultLimit
  have ends : ∀ source ∈ sources, Evaluation.Ends evaluator.interpreter source := by
    decide +kernel
  obtain ⟨alone, idle⟩ := (evaluations_are_isolated evaluator acts).1 toString sources
    rfl ends
  have active : busy.studio.activeSession? = some (.fresh "other") := rfl
  have program : Evaluation.isBlank "(nop)" = false := by decide +kernel
  have refuses := (evaluations_are_isolated busy acts).2.2 "own" "(nop)" _ active program
  exact ⟨rfl, ends, alone "", idle, active, refuses⟩

end Evaluator

end CostTape
