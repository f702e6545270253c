import CostTape.Proofs.Dual.Growth
import CostTape.Recording.Workbench

/-! The life of sessions under any sequence of requests: at most one records,
what is stopped stays as it is, and what is recorded stays in its place. -/

namespace CostTape

namespace Studio

/-- What one request can do to the sessions: nothing, start one, stop the active
one, or let one record nodes of a certain sort. -/
inductive Moves (sort : Node → Prop) (studio : Studio) : Studio → Prop
  | stay : Moves sort studio studio
  | start (label : String) (idle : studio.activeSession? = none) :
      Moves sort studio
        ⟨studio.sessions.push (.fresh label), some studio.sessions.size⟩
  | stop (place : Nat)
      (recording : (studio.session (some place)).isRecording = true)
      (active : studio.active = some place) :
      Moves sort studio
        ⟨studio.sessions.setIfInBounds place (studio.session (some place)).stop, none⟩
  | grow (place : Nat) (after : Session)
      (grown : (studio.session (some place)).Grows sort after) :
      Moves sort studio
        { studio with sessions := studio.sessions.setIfInBounds place after }

variable {sort : Node → Prop}

def CanStop (studio : Studio) (place : Nat) : Prop :=
  (studio.session (some place)).isRecording = true ∧ studio.active = some place

theorem stop_of_canStop {studio : Studio} {place : Nat} (can : studio.CanStop place) :
    studio.stop (some place) =
      .ok ((studio.session (some place)).stop.graph,
        ⟨studio.sessions.setIfInBounds place (studio.session (some place)).stop,
          none⟩) :=
  if_pos can

theorem stop_of_not_canStop
    {studio : Studio} {place : Nat} (cannot : ¬studio.CanStop place) :
    studio.stop (some place) = .error (.notRecording "stop session") :=
  if_neg cannot

theorem moves_of_start {studio next : Studio} {label : String} {place : Nat}
    (started : studio.start label = .ok (place, next)) : studio.Moves sort next := by
  unfold Studio.start at started
  cases idle : studio.activeSession? with
  | some session => simp [idle] at started
  | none =>
      rw [idle] at started
      cases started
      exact .start label idle

theorem moves_of_stop {studio next : Studio} {place : Option Nat} {graph : Graph}
    (stopped : studio.stop place = .ok (graph, next)) : studio.Moves sort next := by
  cases place with
  | none => cases stopped
  | some place =>
      by_cases can : studio.CanStop place
      · rw [stop_of_canStop can] at stopped
        cases stopped
        exact .stop place can.1 can.2
      · rw [stop_of_not_canStop can] at stopped
        cases stopped

theorem moves_of_stopActive {studio next : Studio} {graph : Graph}
    (stopped : studio.stopActive = .ok (graph, next)) : studio.Moves sort next := by
  unfold stopActive at stopped
  split at stopped
  · cases stopped
  · exact moves_of_stop stopped

theorem runStep_some (studio : Studio) (place : Nat) (step : StateM Session α) :
    studio.runStep (some place) step =
      ((step.run (studio.session (some place))).1,
        { studio with
          sessions := studio.sessions.setIfInBounds place
            (step.run (studio.session (some place))).2 }) := rfl

theorem runStep_none (studio : Studio) (step : StateM Session α) :
    studio.runStep none step = ((step.run .absent).1, studio) := rfl

theorem moves_of_runStep
    (studio : Studio) (place : Option Nat) (step : StateM Session α)
    (grows : ∀ session : Session, session.Grows sort (step.run session).2) :
    studio.Moves sort (studio.runStep place step).2 := by
  cases place with
  | none => exact .stay
  | some place => exact .grow place _ (grows _)

end Studio

namespace Workbench

open Recording

variable {sort : Node → Prop}

def ScalarRequest.name? : ScalarRequest → Option String
  | .parameter name => some name
  | .output name _ => some name
  | .call name _ => some name
  | _ => none

theorem appends_scalarStep
    (admits : Admits sort) (bench : Workbench) (request : ScalarRequest)
    (named : ∀ name, request.name? = some name → AdmitsName sort name) :
    (bench.scalarStep request).Appends sort := by
  cases request with
  | constant value => exact (Recording.appends_constant value).mono admits.literal
  | parameter name =>
      exact .apply admits.literal fun
        | [], _ => (named name rfl).input
  | output name value =>
      exact .apply admits.literal fun
        | [arg], _ => (named name rfl).output arg
  | nop =>
      exact .apply admits.literal fun
        | [], _ => admits.nop
  | materialize value =>
      exact .map _ ((appends_operand _).mono admits.literal)
  | unary operator value => exact admits.appends_unary operator _
  | binary operator left right => exact admits.appends_binary operator _ _
  | call name operands =>
      exact .apply admits.literal fun args _ => (named name rfl).call args
  | ternary condition first second =>
      exact .apply admits.literal fun args _ => admits.ternary args
  | copy value => exact .pure _
  | primal name => exact .pure _
  | partialAt name slot =>
      simp only [scalarStep]
      cases (bench.dual name).partialAt slot with
      | ok handle => exact .pure _
      | error fault => exact .throw _

theorem appends_dualStep
    (admits : Admits sort) (bench : Workbench) (request : DualRequest) :
    (bench.dualStep request).Appends sort := by
  cases request with
  | seeded value slot dims => exact Dual.appends_seeded admits value slot dims
  | constant value dims => exact Dual.appends_constant admits value dims
  | ofHandle primal dims => exact Dual.appends_ofHandle admits _ dims
  | literal primal partials => exact .pure _
  | unary operation name => exact operation.appends_apply admits _
  | binary operation left right => exact operation.appends_apply admits _ _
  | scale name factor => exact Dual.appends_scale admits _ _
  | addScalar name scalar => exact Dual.appends_addScalar admits _ _
  | copy name => exact .pure _

def Request.name? : Request → Option String
  | .scalar request => request.name?
  | _ => none

theorem studio_perform_scalar
    (bench : Workbench) (name : String) (out : Option String)
    (request : ScalarRequest) :
    (bench.perform name out (.scalar request)).2.studio =
      (bench.studio.runStep (bench.sessions.find? name)
        (bench.scalarStep request).run).2 := by
  simp only [perform]
  rcases bench.studio.runStep (bench.sessions.find? name)
    (bench.scalarStep request).run with ⟨fault | handle, studio⟩
  · rfl
  · cases out <;> rfl

theorem studio_perform_assign
    (bench : Workbench) (name : String) (out : Option String)
    (destination : String) (source : Operand) :
    (bench.perform name out (.assign destination source)).2.studio =
      (bench.studio.runStep (bench.sessions.find? name)
        (Recording.assign (bench.handle (.named destination))
          (bench.handle source)).run).2 := by
  simp only [perform]
  rcases bench.studio.runStep (bench.sessions.find? name)
    (Recording.assign (bench.handle (.named destination)) (bench.handle source)).run
    with ⟨fault | handle, studio⟩ <;> rfl

theorem studio_perform_dual
    (bench : Workbench) (name : String) (out : Option String)
    (request : DualRequest) :
    (bench.perform name out (.dual request)).2.studio =
      (bench.studio.runStep (bench.sessions.find? name)
        (bench.dualStep request).run).2 := by
  simp only [perform]
  rcases bench.studio.runStep (bench.sessions.find? name)
    (bench.dualStep request).run with ⟨fault | dual, studio⟩
  · rfl
  · cases out <;> rfl

theorem moves_of_perform
    (admits : Admits sort) (bench : Workbench) (name : String)
    (out : Option String) (request : Request)
    (named : ∀ symbol, request.name? = some symbol → AdmitsName sort symbol) :
    bench.studio.Moves sort (bench.perform name out request).2.studio := by
  cases request with
  | start label =>
      simp only [perform]
      cases started : bench.studio.start label with
      | ok result => exact Studio.moves_of_start started
      | error fault => exact .stay
  | stop =>
      simp only [perform]
      cases stopped : bench.studio.stop (bench.sessions.find? name) with
      | ok result => exact Studio.moves_of_stop stopped
      | error fault => exact .stay
  | stopActive =>
      simp only [perform]
      cases stopped : bench.studio.stopActive with
      | ok result => exact Studio.moves_of_stopActive stopped
      | error fault => exact .stay
  | active => exact .stay
  | isRecording => exact .stay
  | size => exact Studio.moves_of_runStep _ _ _ Appends.size
  | node handle => exact Studio.moves_of_runStep _ _ _ (Appends.nodeOf _)
  | inspect handle => exact .stay
  | scalar request =>
      rw [studio_perform_scalar]
      exact Studio.moves_of_runStep _ _ _ 
        (appends_scalarStep admits bench request named)
  | assign destination source =>
      rw [studio_perform_assign]
      exact Studio.moves_of_runStep _ _ _ (admits.appends_assign _ _)
  | dual request =>
      rw [studio_perform_dual]
      exact Studio.moves_of_runStep _ _ _ (appends_dualStep admits bench request)
  | assignDual destination source =>
      exact Studio.moves_of_runStep _ _ _ (Dual.grows_assign admits _ _)

/-- A request together with the session that it goes to and the variable that
keeps its result. -/
structure Command where
  session : String
  out : Option String
  request : Request

/-- What becomes of the workbench when commands are obeyed in turn, whether they
fail or not. -/
def after (bench : Workbench) (commands : List Command) : Workbench :=
  commands.foldl
    (fun bench command =>
      (bench.perform command.session command.out command.request).2)
    bench

/-- No session has been started; variables may hold anything. -/
def withVariables (handles : Names Handle) (duals : Names Dual) : Workbench :=
  ⟨.empty, [], handles, duals⟩

@[simp] theorem after_nil (bench : Workbench) : bench.after [] = bench := rfl

@[simp] theorem after_cons
    (bench : Workbench) (command : Command) (commands : List Command) :
    bench.after (command :: commands) =
      (bench.perform command.session command.out command.request).2.after commands :=
  rfl

end Workbench

namespace Studio

/-- The three marks of a session that records agree: it is the active one, it is
not stopped, and its graph is not frozen. -/
structure Consistent (studio : Studio) : Prop where
  active_started : ∀ place : Nat, studio.active = some place →
    place < studio.sessions.size
  recording_iff : ∀ (place : Nat) (session : Session),
    studio.sessions[place]? = some session →
    (session.isRecording = true ↔ studio.active = some place)
  frozen_eq : ∀ (place : Nat) (session : Session),
    studio.sessions[place]? = some session →
    session.graph.frozen = session.isStopped

theorem consistent_empty : empty.Consistent where
  active_started := by
    intro place active
    cases active
  recording_iff := by
    intro place session found
    cases found
  frozen_eq := by
    intro place session found
    cases found

variable {sort : Node → Prop} {studio next : Studio}

theorem session_eq_of_inside {place : Nat} (inside : place < studio.sessions.size) :
    studio.sessions[place]? = some (studio.session (some place)) := by
  simp [Studio.session, inside]

theorem replaced_or_kept {place other : Nat} {session found : Session}
    (same : (studio.sessions.setIfInBounds place session)[other]? = some found) :
    (other = place ∧ place < studio.sessions.size ∧ session = found) ∨
      (other ≠ place ∧ studio.sessions[other]? = some found) := by
  rw [Array.getElem?_setIfInBounds] at same
  by_cases here : place = other
  · subst here
    by_cases inside : place < studio.sessions.size
    · simp only [if_true, if_pos inside, Option.some.injEq] at same
      exact .inl ⟨rfl, inside, same⟩
    · simp [inside] at same
  · rw [if_neg here] at same
    exact .inr ⟨Ne.symm here, same⟩

namespace Consistent

theorem activeSession?_eq_none_iff (consistent : studio.Consistent) :
    studio.activeSession? = none ↔ studio.active = none := by
  cases active : studio.active with
  | none => simp [activeSession?, active]
  | some place =>
      have started := consistent.active_started place active
      simp [activeSession?, active, started]

theorem canStop_iff (consistent : studio.Consistent) (place : Nat) :
    studio.CanStop place ↔ studio.active = some place := by
  constructor
  · exact fun can => can.2
  · intro active
    have started := consistent.active_started place active
    have recording :=
      (consistent.recording_iff place _ (session_eq_of_inside started)).mpr active
    exact ⟨recording, active⟩

theorem start (consistent : studio.Consistent) (label : String)
    (idle : studio.active = none) :
    Consistent
      ⟨studio.sessions.push (.fresh label), some studio.sessions.size⟩ where
  active_started := by
    intro place active
    cases active
    simp
  recording_iff := by
    intro place session found
    rw [Array.getElem?_push] at found
    split at found
    · rename_i last
      cases found
      simp [last, Session.fresh, Session.isRecording]
    · rename_i earlier
      have stopped := consistent.recording_iff place session found
      rw [idle] at stopped
      simp only [stopped, Option.some.injEq]
      constructor
      · intro absurd
        cases absurd
      · exact fun same => (earlier same.symm).elim
  frozen_eq := by
    intro place session found
    rw [Array.getElem?_push] at found
    split at found
    · cases found
      rfl
    · exact consistent.frozen_eq place session found

theorem replace (consistent : studio.Consistent)
    (place : Nat) (session : Session) (active : Option Nat)
    (started : ∀ other, active = some other → other < studio.sessions.size)
    (recording : place < studio.sessions.size →
      (session.isRecording = true ↔ active = some place))
    (frozen : place < studio.sessions.size →
      session.graph.frozen = session.isStopped)
    (others : ∀ other, other ≠ place →
      (active = some other ↔ studio.active = some other)) :
    Consistent ⟨studio.sessions.setIfInBounds place session, active⟩ where
  active_started := by
    simpa using started
  recording_iff := by
    intro other found same
    rcases replaced_or_kept same with ⟨rfl, inside, rfl⟩ | ⟨apart, kept⟩
    · exact recording inside
    · rw [consistent.recording_iff other found kept]
      exact (others other apart).symm
  frozen_eq := by
    intro other found same
    rcases replaced_or_kept same with ⟨rfl, inside, rfl⟩ | ⟨apart, kept⟩
    · exact frozen inside
    · exact consistent.frozen_eq other found kept

theorem stop (consistent : studio.Consistent) (place : Nat)
    (active : studio.active = some place) :
    Consistent
      ⟨studio.sessions.setIfInBounds place (studio.session (some place)).stop, none⟩ := by
  refine consistent.replace place _ none ?_ ?_ ?_ ?_
  · intro other absurd
    cases absurd
  · intro _
    simp [Session.stop, Session.isRecording]
  · intro _
    rfl
  · intro other different
    rw [active]
    simp [Ne.symm different]

theorem grow (consistent : studio.Consistent) (place : Nat) {session : Session}
    (grown : (studio.session (some place)).Grows sort session) :
    Consistent
      { studio with sessions := studio.sessions.setIfInBounds place session } := by
  refine consistent.replace place session studio.active consistent.active_started ?_ ?_ ?_
  · intro inside
    rw [← consistent.recording_iff place _ (session_eq_of_inside inside),
      Session.isRecording, Session.isRecording, grown.isStopped_eq]
  · intro inside
    rw [grown.frozen_eq, grown.isStopped_eq]
    exact consistent.frozen_eq place _ (session_eq_of_inside inside)
  · intro other _
    exact Iff.rfl

theorem move (consistent : studio.Consistent) (moves : studio.Moves sort next) :
    next.Consistent := by
  cases moves with
  | stay => exact consistent
  | start label idle =>
      exact consistent.start label (consistent.activeSession?_eq_none_iff.mp idle)
  | stop place recording active => exact consistent.stop place active
  | grow place session grown => exact consistent.grow place grown

end Consistent

end Studio

namespace Session

/-- What a session may become: once stopped it stays the same, and its nodes
never move. -/
structure Keeps (before after : Session) : Prop where
  same_of_stopped : before.isStopped = true → after = before
  nodes_prefix : before.graph.nodes.toList <+: after.graph.nodes.toList

namespace Keeps

variable {before middle after : Session}

theorem refl (session : Session) : session.Keeps session :=
  ⟨fun _ => rfl, List.prefix_refl _⟩

theorem trans (first : before.Keeps middle) (second : middle.Keeps after) :
    before.Keeps after where
  same_of_stopped := by
    intro stopped
    have unchanged := first.same_of_stopped stopped
    subst unchanged
    exact second.same_of_stopped stopped
  nodes_prefix := first.nodes_prefix.trans second.nodes_prefix

theorem stop (recording : before.isRecording = true) : before.Keeps before.stop where
  same_of_stopped := by
    intro stopped
    simp [isRecording, stopped] at recording
  nodes_prefix := List.prefix_refl _

end Keeps

inductive Step (sort : Node → Prop) : Option Session → Option Session → Prop
  | absent : Step sort none none
  | start (label : String) : Step sort none (some (fresh label))
  | stop {session : Session} (recording : session.isRecording = true) :
      Step sort (some session) (some session.stop)
  | grow {before after : Session} (grown : before.Grows sort after) :
      Step sort (some before) (some after)

theorem Step.refl {sort : Node → Prop} (session : Option Session) :
    Step sort session session := by
  cases session with
  | none => exact .absent
  | some session => exact .grow .refl

theorem Grows.keeps {sort : Node → Prop} {before after : Session}
    (grown : before.Grows sort after) : before.Keeps after where
  same_of_stopped := by
    intro stopped
    exact grown.eq_of_not_recording (by simp [isRecording, stopped])
  nodes_prefix := grown.nodes_prefix

end Session

namespace Studio

variable {sort : Node → Prop} {studio next : Studio}

theorem step_replace {place : Nat} {session : Session}
    (step : Session.Step sort (some (studio.session (some place))) (some session))
    (other : Nat) :
    Session.Step sort studio.sessions[other]?
      (studio.sessions.setIfInBounds place session)[other]? := by
  rw [Array.getElem?_setIfInBounds]
  by_cases here : place = other
  · subst here
    by_cases inside : place < studio.sessions.size
    · rw [session_eq_of_inside inside]
      simpa [inside] using step
    · simpa [inside] using Session.Step.absent
  · simpa [here] using Session.Step.refl _

theorem Moves.step (moves : studio.Moves sort next) (place : Nat) :
    Session.Step sort studio.sessions[place]? next.sessions[place]? := by
  cases moves with
  | stay => exact .refl _
  | start label idle =>
      rw [Array.getElem?_push]
      split
      · rename_i last
        simpa [last] using Session.Step.start label
      · exact .refl _
  | stop stopped recording active => exact step_replace (.stop recording) place
  | grow grown session growth => exact step_replace (.grow growth) place

theorem Moves.keeps (moves : studio.Moves sort next) {place : Nat} {session : Session}
    (before : studio.sessions[place]? = some session) :
    ∃ later, next.sessions[place]? = some later ∧ session.Keeps later := by
  have step := moves.step place
  rw [before] at step
  cases after : next.sessions[place]? with
  | none =>
      rw [after] at step
      cases step
  | some later =>
      rw [after] at step
      refine ⟨later, rfl, ?_⟩
      cases step with
      | grow grown => exact grown.keeps
      | stop recording => exact .stop recording

end Studio

namespace Workbench

open Recording

theorem moves (bench : Workbench) (name : String) (out : Option String)
    (request : Request) :
    bench.studio.Moves (fun _ => True) (bench.perform name out request).2.studio :=
  moves_of_perform .all bench name out request fun symbol _ => .all symbol

theorem consistent_after (bench : Workbench) (commands : List Command)
    (consistent : bench.studio.Consistent) :
    (bench.after commands).studio.Consistent := by
  induction commands generalizing bench with
  | nil => exact consistent
  | cons command commands induction =>
      exact induction _ (consistent.move (bench.moves _ _ _))

theorem keeps_after (bench : Workbench) (commands : List Command)
    {place : Nat} {session : Session}
    (before : bench.studio.sessions[place]? = some session) :
    ∃ later, (bench.after commands).studio.sessions[place]? = some later ∧
      session.Keeps later := by
  induction commands generalizing bench session with
  | nil => exact ⟨session, before, .refl session⟩
  | cons command commands induction =>
      obtain ⟨middle, found, first⟩ := (bench.moves _ _ _).keeps before
      obtain ⟨later, kept, second⟩ := induction _ found
      exact ⟨later, kept, first.trans second⟩

variable {bench : Workbench} (name : String) (out : Option String)

theorem perform_start_of_active {place : Nat} (label : String)
    (consistent : bench.studio.Consistent)
    (active : bench.studio.active = some place) :
    ∃ running, bench.perform name out (.start label) =
      (.error (.sessionActive running), bench) := by
  cases found : bench.studio.activeSession? with
  | none =>
      rw [consistent.activeSession?_eq_none_iff, active] at found
      cases found
  | some session => exact ⟨session.label, by simp [perform, Studio.start, found]⟩

theorem perform_start_of_idle (label : String) (idle : bench.studio.active = none) :
    bench.perform name out (.start label) =
      (.ok .done, { bench with
        studio := ⟨bench.studio.sessions.push (.fresh label),
          some bench.studio.sessions.size⟩
        sessions := bench.sessions.assign name bench.studio.sessions.size }) := by
  simp [perform, Studio.start, Studio.activeSession?, idle]

/-- The name stands for the session that records. -/
def NamesActive (bench : Workbench) (name : String) : Prop :=
  ∃ place, bench.sessions.find? name = some place ∧ bench.studio.active = some place

def stopping (bench : Workbench) (place : Nat) : Workbench :=
  { bench with
    studio := ⟨bench.studio.sessions.setIfInBounds place
      (bench.studio.session (some place)).stop, none⟩ }

theorem perform_stop_of_active {place : Nat}
    (consistent : bench.studio.Consistent)
    (named : bench.sessions.find? name = some place)
    (active : bench.studio.active = some place) :
    bench.perform name out .stop =
      (.ok (.graph (bench.studio.session (some place)).graph.freeze),
        bench.stopping place) := by
  have can := (consistent.canStop_iff place).mpr active
  simp only [perform, named, Studio.stop_of_canStop can]
  rfl

theorem perform_stop_of_not_namesActive (inactive : ¬bench.NamesActive name) :
    bench.perform name out .stop = (.error (.notRecording "stop session"), bench) := by
  cases found : bench.sessions.find? name with
  | none => simp [perform, found, Studio.stop]
  | some place =>
      have cannot : ¬bench.studio.CanStop place :=
        fun can => inactive ⟨place, found, can.2⟩
      simp [perform, found, Studio.stop_of_not_canStop cannot]

theorem perform_stopActive_of_active {place : Nat}
    (consistent : bench.studio.Consistent)
    (active : bench.studio.active = some place) :
    bench.perform name out .stopActive =
      (.ok (.graph (bench.studio.session (some place)).graph.freeze),
        bench.stopping place) := by
  have can := (consistent.canStop_iff place).mpr active
  simp only [perform, Studio.stopActive, active, Studio.stop_of_canStop can]
  rfl

theorem perform_stopActive_of_idle (idle : bench.studio.active = none) :
    bench.perform name out .stopActive =
      (.error (.notRecording "stop recording"), bench) := by
  simp [perform, Studio.stopActive, idle]

/-- After any sequence of commands, failing ones included: a session is not
stopped exactly if it is the active one; a start fails exactly if one is active,
and a stop exactly if its session is not, and then nothing changes; and whatever
comes later, a stopped session stays the same and no recorded node moves. -/
theorem session_lifecycle
    (handles : Names Handle) (duals : Names Dual) (commands : List Command) :
    let bench := (withVariables handles duals).after commands
    (∀ (place : Nat) (session : Session),
      bench.studio.sessions[place]? = some session →
      (session.isStopped = false ↔ bench.studio.active = some place) ∧
      session.graph.frozen = session.isStopped) ∧
    (∀ name out label,
      ((∃ running, (bench.perform name out (.start label)).1 =
          .error (.sessionActive running)) ↔ bench.studio.active.isSome = true) ∧
      (bench.studio.active.isSome = true →
        (bench.perform name out (.start label)).2 = bench) ∧
      (bench.studio.active = none →
        (bench.perform name out (.start label)).1 = .ok .done ∧
        (bench.perform name out (.start label)).2.studio.active =
          some bench.studio.sessions.size)) ∧
    (∀ name out,
      ((∃ graph, (bench.perform name out .stop).1 = .ok (.graph graph)) ↔
        bench.NamesActive name) ∧
      (bench.NamesActive name →
        (bench.perform name out .stop).2.studio.active = none) ∧
      (¬bench.NamesActive name → bench.perform name out .stop =
        (.error (.notRecording "stop session"), bench))) ∧
    (∀ name out,
      ((∃ graph, (bench.perform name out .stopActive).1 = .ok (.graph graph)) ↔
        bench.studio.active.isSome = true) ∧
      (bench.studio.active.isSome = true →
        (bench.perform name out .stopActive).2.studio.active = none) ∧
      (bench.studio.active = none → bench.perform name out .stopActive =
        (.error (.notRecording "stop recording"), bench))) ∧
    (∀ (later : List Command) (place : Nat) (session : Session),
      bench.studio.sessions[place]? = some session →
      ∃ kept, (bench.after later).studio.sessions[place]? = some kept ∧
        (session.isStopped = true → kept = session) ∧
        session.graph.nodes.toList <+: kept.graph.nodes.toList) := by
  intro bench
  have consistent : bench.studio.Consistent :=
    consistent_after _ commands Studio.consistent_empty
  refine ⟨?_, ?_, ?_, ?_, ?_⟩
  · intro place session found
    refine ⟨?_, consistent.frozen_eq place session found⟩
    rw [← consistent.recording_iff place session found]
    simp [Session.isRecording]
  · intro name out label
    cases active : bench.studio.active with
    | none => simp [perform_start_of_idle name out label active]
    | some place =>
        obtain ⟨running, refused⟩ :=
          perform_start_of_active name out label consistent active
        simp [refused]
  · intro name out
    by_cases active : bench.NamesActive name
    · obtain ⟨place, named, running⟩ := id active
      simp [perform_stop_of_active name out consistent named running, active, stopping]
    · simp [perform_stop_of_not_namesActive name out active, active]
  · intro name out
    cases active : bench.studio.active with
    | none => simp [perform_stopActive_of_idle name out active]
    | some place =>
        simp [perform_stopActive_of_active name out consistent active, stopping]
  · intro later place session found
    obtain ⟨kept, remains, keeps⟩ := bench.keeps_after later found
    exact ⟨kept, remains, keeps.same_of_stopped, keeps.nodes_prefix⟩

end Workbench

end CostTape
