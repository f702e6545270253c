import CostTape.Proofs.Recording.Lifecycle

/-! What a session does that no longer records. -/

namespace CostTape

namespace Recording

variable {session : Session}

/-- The step fails and leaves the session as it is, because the session does not
record or an operand is unset. -/
def Refuses (step : Recording α) (session : Session) : Prop :=
  ∃ fault, (fault = .unsetHandle ∨ ∃ operation, fault = .notRecording operation) ∧
    step.runOn session = (.error fault, session)

theorem Refuses.bind
    {step : Recording α} {next : α → Recording β} (refuses : step.Refuses session) :
    (step >>= next).Refuses session := by
  obtain ⟨fault, cause, failed⟩ := refuses
  exact ⟨fault, cause, by rw [runOn_bind, failed]⟩

theorem Refuses.bind_of_ok
    {step : Recording α} {next : α → Recording β} {value : α}
    (first : step.runOn session = (.ok value, session))
    (second : (next value).Refuses session) :
    (step >>= next).Refuses session := by
  obtain ⟨fault, cause, failed⟩ := second
  exact ⟨fault, cause, by rw [runOn_bind_of_ok first, failed]⟩

theorem Refuses.map
    {step : Recording α} (convert : α → β) (refuses : step.Refuses session) :
    (convert <$> step).Refuses session := by
  obtain ⟨fault, cause, failed⟩ := refuses
  exact ⟨fault, cause, by rw [runOn_map, failed]; rfl⟩

theorem refuses_demandRecording
    (operation : String) (stopped : session.isRecording = false) :
    (demandRecording operation).Refuses session :=
  ⟨_, .inr ⟨operation, rfl⟩, by simp [runOn_demandRecording, stopped]⟩

theorem refuses_record (node : Node) (stopped : session.isRecording = false) :
    (record node).Refuses session :=
  ⟨_, .inr ⟨node.kind.name, rfl⟩, by simp [runOn_record, stopped]⟩

theorem refuses_constant (value : Float) (stopped : session.isRecording = false) :
    (constant value).Refuses session :=
  (refuses_record _ stopped).map _

theorem operand_of_stopped
    (handle : Handle) (stopped : session.isRecording = false) :
    (∃ id, handle = .bound id) ∨ (operand handle).Refuses session := by
  cases handle with
  | unset => exact .inr ⟨_, .inl rfl, rfl⟩
  | bound id => exact .inl ⟨id, rfl⟩
  | literal value => exact .inr ((refuses_constant value stopped).map _)

theorem mapM_operand_of_stopped
    (operands : List Handle) (stopped : session.isRecording = false) :
    (∃ args, (operands.mapM operand).runOn session = (.ok args, session)) ∨
      (operands.mapM operand).Refuses session := by
  induction operands with
  | nil => exact .inl ⟨[], rfl⟩
  | cons handle operands induction =>
      rw [List.mapM_cons]
      rcases operand_of_stopped handle stopped with ⟨id, rfl⟩ | refuses
      · rcases induction with ⟨args, collected⟩ | refuses
        · refine .inl ⟨id :: args, ?_⟩
          change ((operands.mapM operand) >>= fun args => pure (id :: args)).runOn
            session = _
          rw [runOn_bind_of_ok collected]
          rfl
        · have passed : (operand (.bound id)).runOn session = (.ok id, session) := rfl
          exact .inr (.bind_of_ok passed refuses.bind)
      · exact .inr refuses.bind

theorem refuses_apply
    (kind : Kind) (symbol : String) (operands : List Handle)
    (stopped : session.isRecording = false) :
    (apply kind symbol operands).Refuses session := by
  rcases mapM_operand_of_stopped operands stopped with ⟨args, collected⟩ | refuses
  · exact .bind_of_ok collected ((refuses_record _ stopped).map _)
  · exact refuses.bind

theorem refuses_assign
    {destination source : Handle} (stopped : session.isRecording = false)
    (records : (∃ id, source = .bound id) → ∃ id, destination = .bound id) :
    (assign destination source).Refuses session := by
  rcases operand_of_stopped source stopped with ⟨arg, rfl⟩ | refuses
  · obtain ⟨target, rfl⟩ := records ⟨arg, rfl⟩
    have passed : (operand (.bound arg)).runOn session = (.ok arg, session) := rfl
    exact .bind_of_ok passed (refuses_record _ stopped).bind
  · exact refuses.bind

theorem materialize_bound (id : NodeId) :
    (materialize (.bound id)).runOn session = (.ok (.bound id), session) := rfl

theorem assign_bound_of_free
    {destination : Handle} (id : NodeId) (free : ¬∃ target, destination = .bound target) :
    (assign destination (.bound id)).runOn session = (.ok (.bound id), session) := by
  cases destination with
  | bound target => exact (free ⟨target, rfl⟩).elim
  | unset => rfl
  | literal value => rfl

end Recording

namespace Studio

theorem setIfInBounds_session (studio : Studio) (place : Nat) :
    studio.sessions.setIfInBounds place (studio.session (some place)) =
      studio.sessions := by
  apply Array.ext_getElem?
  intro other
  rw [Array.getElem?_setIfInBounds]
  by_cases here : place = other
  · subst here
    by_cases inside : place < studio.sessions.size <;> simp [Studio.session, inside]
  · simp [here]

theorem runStep_eq_of_same (studio : Studio) (place : Option Nat)
    {step : StateM Session α} {result : α}
    (same : step.run (studio.session place) = (result, studio.session place)) :
    studio.runStep place step = (result, studio) := by
  cases place with
  | none =>
      rw [runStep_none]
      exact congrArg (fun pair => (pair.1, studio)) same
  | some place =>
      rw [runStep_some, same]
      simp only [setIfInBounds_session]

end Studio

namespace Workbench

open Recording

/-- The request goes to a session, and not only to variables. -/
def ScalarRequest.isOperation : ScalarRequest → Bool
  | .copy _ | .primal _ | .partialAt _ _ => false
  | _ => true

def Request.isOperation : Request → Bool
  | .size | .node _ | .assign _ _ => true
  | .scalar request => request.isOperation
  | _ => false

/-- The request would name a node that is there already, and record nothing. -/
def OnlyRebinds (bench : Workbench) : Request → Prop
  | .scalar (.materialize value) => ∃ id, bench.handle value = .bound id
  | .assign destination source =>
      (∃ id, bench.handle source = .bound id) ∧
        ¬∃ id, bench.handle (.named destination) = .bound id
  | _ => False

theorem refuses_scalarStep
    {bench : Workbench} {session : Session} {request : ScalarRequest}
    (stopped : session.isRecording = false) (operation : request.isOperation = true)
    (records : ¬bench.OnlyRebinds (.scalar request)) :
    (bench.scalarStep request).Refuses session := by
  cases request with
  | constant value => exact refuses_constant value stopped
  | parameter name => exact refuses_apply _ _ _ stopped
  | output name value => exact refuses_apply _ _ _ stopped
  | nop => exact refuses_apply _ _ _ stopped
  | materialize value =>
      have refuses := (operand_of_stopped (bench.handle value) stopped).resolve_left
        records
      exact refuses.map _
  | unary operator value => exact refuses_apply _ _ _ stopped
  | binary operator left right => exact refuses_apply _ _ _ stopped
  | call name operands => exact refuses_apply _ _ _ stopped
  | ternary condition first second => exact refuses_apply _ _ _ stopped
  | copy value => cases operation
  | primal name => cases operation
  | partialAt name slot => cases operation

theorem perform_of_refuses
    {bench : Workbench} {name : String} {request : Request} (out : Option String)
    (stopped : (bench.studio.session (bench.sessions.find? name)).isRecording = false)
    (operation : request.isOperation = true) (records : ¬bench.OnlyRebinds request) :
    ∃ fault, (fault = .unsetHandle ∨ ∃ operation, fault = .notRecording operation) ∧
      bench.perform name out request = (.error fault, bench) := by
  cases request with
  | size =>
      have refuses : Recording.size.Refuses _ :=
        (refuses_demandRecording "size" stopped).bind
      obtain ⟨fault, cause, failed⟩ := refuses
      have kept := bench.studio.runStep_eq_of_same (bench.sessions.find? name) failed
      exact ⟨fault, cause, by simp only [perform, kept, Except.map]⟩
  | node handle =>
      have refuses : (nodeOf (bench.handle handle)).Refuses _ :=
        (refuses_demandRecording "node" stopped).bind
      obtain ⟨fault, cause, failed⟩ := refuses
      have kept := bench.studio.runStep_eq_of_same (bench.sessions.find? name) failed
      exact ⟨fault, cause, by simp only [perform, kept, Except.map]⟩
  | scalar request =>
      obtain ⟨fault, cause, failed⟩ := refuses_scalarStep stopped operation records
      have kept := bench.studio.runStep_eq_of_same (bench.sessions.find? name) failed
      exact ⟨fault, cause, by simp only [perform, kept]⟩
  | assign destination source =>
      have bothBound : (∃ id, bench.handle source = .bound id) →
          ∃ id, bench.handle (.named destination) = .bound id :=
        fun bound => Classical.byContradiction fun free => records ⟨bound, free⟩
      obtain ⟨fault, cause, failed⟩ := refuses_assign stopped bothBound
      have kept := bench.studio.runStep_eq_of_same (bench.sessions.find? name) failed
      exact ⟨fault, cause, by simp only [perform, kept]⟩
  | _ => cases operation

/-- What a request does that only rebinds: variables change, no session does. -/
def rebinding (bench : Workbench) (out : Option String) :
    Request → Except RecordingFault Answer × Workbench
  | .scalar (.materialize value) =>
      (.ok (.handle (bench.handle value)), bench.keepHandle out (bench.handle value))
  | .assign destination source =>
      (.ok (.handle (bench.handle source)),
        { bench with handles := bench.handles.assign destination (bench.handle source) })
  | _ => (.ok .done, bench)

theorem studio_rebinding
    (bench : Workbench) (out : Option String) (request : Request) :
    (bench.rebinding out request).2.studio = bench.studio := by
  unfold rebinding
  split
  · cases out <;> rfl
  · rfl
  · rfl

theorem perform_of_onlyRebinds
    {bench : Workbench} {request : Request} (name : String) (out : Option String)
    (rebinds : bench.OnlyRebinds request) :
    bench.perform name out request = bench.rebinding out request := by
  cases request with
  | scalar request =>
      cases request with
      | materialize value =>
          obtain ⟨id, bound⟩ := rebinds
          have kept := bench.studio.runStep_eq_of_same (bench.sessions.find? name)
            (materialize_bound id)
          rw [← bound] at kept
          simp only [perform, scalarStep, kept, rebinding]
      | _ => exact rebinds.elim
  | assign destination source =>
      obtain ⟨⟨id, bound⟩, free⟩ := rebinds
      have kept := bench.studio.runStep_eq_of_same (bench.sessions.find? name)
        (assign_bound_of_free id free)
      rw [← bound] at kept
      simp only [perform, kept, rebinding]
  | _ => exact rebinds.elim

/-- On a session that does not record, every operation is refused and changes
nothing at all, except those that record nothing: materializing a bound handle,
and assigning a bound handle to a variable that names no node. -/
theorem stopped_session_refuses
    (bench : Workbench) (name : String) (out : Option String) (request : Request)
    (stopped : (bench.studio.session (bench.sessions.find? name)).isRecording = false)
    (operation : request.isOperation = true) :
    (bench.perform name out request).2.studio = bench.studio ∧
      (¬bench.OnlyRebinds request → ∃ fault,
        (fault = .unsetHandle ∨ ∃ operation, fault = .notRecording operation) ∧
        bench.perform name out request = (.error fault, bench)) ∧
      (bench.OnlyRebinds request →
        bench.perform name out request = bench.rebinding out request) := by
  refine ⟨?_, perform_of_refuses out stopped operation, perform_of_onlyRebinds name out⟩
  by_cases rebinds : bench.OnlyRebinds request
  · rw [perform_of_onlyRebinds name out rebinds]
    exact bench.studio_rebinding out request
  · obtain ⟨fault, -, failed⟩ := perform_of_refuses out stopped operation rebinds
    rw [failed]

def stoppedBench : Workbench :=
  (withVariables [] []).after
    [⟨"s", none, .start "1"⟩, ⟨"s", some "a", .scalar (.constant 1.0)⟩,
      ⟨"s", none, .stop⟩]

/-- After the stop a sum is refused, but `b` can still be made to name `a`. -/
theorem stoppedBench_refuses_sum_but_rebinds :
    (∃ fault, stoppedBench.perform "s" none
      (.scalar (.binary .add (.named "a") (.named "a"))) = (.error fault, stoppedBench)) ∧
    (stoppedBench.perform "s" none (.assign "b" (.named "a"))).1 =
      .ok (.handle (.bound 0)) ∧
    (stoppedBench.perform "s" none (.assign "b" (.named "a"))).2.handle (.named "b") ≠
      stoppedBench.handle (.named "b") := by
  have refused := (stopped_session_refuses stoppedBench "s" none
    (.scalar (.binary .add (.named "a") (.named "a"))) rfl rfl).2.1 id
  obtain ⟨fault, -, failed⟩ := refused
  have rebinds : stoppedBench.OnlyRebinds (.assign "b" (.named "a")) :=
    ⟨⟨0, rfl⟩, fun ⟨_, bound⟩ => nomatch bound⟩
  have rebound := (stopped_session_refuses stoppedBench "s" none
    (.assign "b" (.named "a")) rfl rfl).2.2 rebinds
  refine ⟨⟨fault, failed⟩, ?_, ?_⟩
  · rw [rebound]
    rfl
  · rw [rebound]
    decide

end Workbench

end CostTape
