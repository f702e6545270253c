import CostTape.Proofs.Dual.Recorded
import CostTape.Proofs.Dual.Slots
import CostTape.Proofs.Recording.Calculation

/-! Variables that share slots.  Whatever is recorded and assigned, a partial shares its
slot only with partials at the same index, of its own or of other dual numbers. -/

namespace CostTape

namespace Handle

/-- Both handles name the same node, so that what is written through one is read through
the other. -/
def sharesSlot : Handle → Handle → Bool
  | bound id, bound other => id = other
  | _, _ => false

theorem sharesSlot_iff {first second : Handle} :
    first.sharesSlot second = true ↔ ∃ id, first = .bound id ∧ second = .bound id := by
  cases first <;> cases second <;> simp [sharesSlot, eq_comm]

theorem IsNew.sharesSlot_eq_false {lower upper : Nat} {handle other : Handle}
    (new : handle.IsNew lower upper) (within : other.Within lower) :
    handle.sharesSlot other = false := by
  rw [← Bool.not_eq_true, sharesSlot_iff]
  rintro ⟨id, rfl, rfl⟩
  exact new.not_within within

end Handle

namespace Workbench

open Recording

/-- What can hold a handle: a name for one, or a part of a named dual number. -/
inductive Variable where
  | scalar (name : String)
  | component (dual : String) (index : Nat)
deriving DecidableEq

def held (bench : Workbench) : Variable → Handle
  | .scalar name => bench.handle (.named name)
  | .component name index => (bench.dual name).component index

/-- Records an operation, or assigns.  A dual number put together from any handles is not
recorded. -/
def Request.isStep : Request → Bool
  | .scalar _ | .assign _ _ | .assignDual _ _ => true
  | .dual (.literal _ _) => false
  | .dual _ => true
  | _ => false

/-- How variables share slots of a trace with `size` nodes. -/
structure Orderly (bench : Workbench) (size : Nat) : Prop where
  within : ∀ place : Variable, (bench.held place).Within size
  recorded : ∀ (name : String) (index : Nat) (value : Float),
    bench.held (.component name (index + 1)) ≠ .literal value
  aligned : ∀ (first second : String) (index other : Nat),
    (bench.held (.component first (index + 1))).sharesSlot
      (bench.held (.component second (other + 1))) = true → index = other

/-- A dual number that may be kept: its partials are new, or each comes from the same
index of another dual number. -/
structure Provides (bench : Workbench) (lower upper : Nat) (dual : Dual) : Prop where
  within : ∀ handle ∈ dual.handles, handle.Within upper
  partials : Ascending upper lower dual.partials ∨
    ∀ index handle, dual.partials[index]? = some handle →
      ∃ name, bench.held (.component name (index + 1)) = handle

variable {bench : Workbench} {size : Nat}

theorem held_keepHandle_self (bench : Workbench) (name : String) (handle : Handle) :
    (bench.keepHandle (some name) handle).held (.scalar name) = handle := by
  simp [held, Workbench.keepHandle, Workbench.handle, Names.find?_assign]

theorem held_keepHandle_of_ne (bench : Workbench) (name : String) (handle : Handle)
    {place : Variable} (other : place ≠ .scalar name) :
    (bench.keepHandle (some name) handle).held place = bench.held place := by
  cases place with
  | component dual index => rfl
  | scalar key =>
      have apart : key ≠ name := fun same => other (congrArg Variable.scalar same)
      simp [held, Workbench.keepHandle, Workbench.handle, Names.find?_assign, apart]

theorem held_keepDual_self (bench : Workbench) (name : String) (dual : Dual)
    (index : Nat) :
    (bench.keepDual (some name) dual).held (.component name index) =
      dual.component index := by
  simp [held, Workbench.keepDual, Workbench.dual, Names.find?_assign]

theorem held_keepDual_of_ne (bench : Workbench) (name : String) (dual : Dual)
    {place : Variable} (other : ∀ index, place ≠ .component name index) :
    (bench.keepDual (some name) dual).held place = bench.held place := by
  cases place with
  | scalar key => rfl
  | component key index =>
      have apart : key ≠ name := by
        rintro rfl
        exact other index rfl
      simp [held, Workbench.keepDual, Workbench.dual, Names.find?_assign, apart]

namespace Orderly

theorem mono {larger : Nat} (size_le : size ≤ larger) (orderly : bench.Orderly size) :
    bench.Orderly larger :=
  ⟨fun place => (orderly.within place).mono size_le, orderly.recorded, orderly.aligned⟩

theorem keepHandle (orderly : bench.Orderly size) (out : Option String) {handle : Handle}
    (within : handle.Within size) : (bench.keepHandle out handle).Orderly size := by
  cases out with
  | none => exact orderly
  | some name =>
      refine ⟨fun place => ?_, orderly.recorded, orderly.aligned⟩
      by_cases here : place = .scalar name
      · rw [here, held_keepHandle_self]
        exact within
      · rw [held_keepHandle_of_ne _ _ _ here]
        exact orderly.within place

/-- Where a partial comes from after a dual number has been kept. -/
theorem origin {lower upper : Nat} {dual : Dual} {name key : String} {index : Nat}
    {handle : Handle} (provides : bench.Provides lower upper dual)
    (holds : (bench.keepDual (some name) dual).held (.component key (index + 1)) =
      handle) :
    handle = .unset ∨
      (∃ other, bench.held (.component other (index + 1)) = handle) ∨
        (Ascending upper lower dual.partials ∧ dual.partials[index]? = some handle) := by
  by_cases here : key = name
  · rw [here, held_keepDual_self] at holds
    cases found : dual.partials[index]? with
    | none =>
        left
        rw [← holds, Dual.component, Dual.handles, List.getElem?_cons_succ, found]
        rfl
    | some slot =>
        have same : slot = handle := (Dual.component_eq found).symm.trans holds
        subst same
        obtain ascending | reused := provides.partials
        · exact .inr (.inr ⟨ascending, rfl⟩)
        · exact .inr (.inl (reused index slot found))
  · right; left
    rw [held_keepDual_of_ne] at holds
    · exact ⟨key, holds⟩
    · intro other same
      cases same
      exact here rfl

theorem aligned_keepDual {lower upper : Nat} {dual : Dual} {name first second : String}
    {index other : Nat} (orderly : bench.Orderly lower)
    (provides : bench.Provides lower upper dual)
    (shared : ((bench.keepDual (some name) dual).held
      (.component first (index + 1))).sharesSlot
      ((bench.keepDual (some name) dual).held (.component second (other + 1))) = true) :
    index = other := by
  obtain ⟨id, here, there⟩ := Handle.sharesSlot_iff.mp shared
  -- An old slot and a new one are never the same.
  have apart {place : Variable} {position : Nat}
      (ascending : Ascending upper lower dual.partials)
      (found : dual.partials[position]? = some (.bound id)) :
      bench.held place ≠ .bound id := by
    intro old
    have new := ascending.isNew (List.mem_of_getElem? found)
    rw [← old] at new
    exact new.not_within (orderly.within place)
  obtain absurd | ⟨source, old⟩ | ⟨ascending, found⟩ := origin provides here
  · cases absurd
  · obtain absurd | ⟨further, older⟩ | ⟨ascending, found⟩ := origin provides there
    · cases absurd
    · exact orderly.aligned source further index other
        (Handle.sharesSlot_iff.mpr ⟨id, old, older⟩)
    · exact (apart ascending found old).elim
  · obtain absurd | ⟨further, older⟩ | ⟨-, again⟩ := origin provides there
    · cases absurd
    · exact (apart ascending found older).elim
    · obtain ⟨inside, -⟩ := List.getElem?_eq_some_iff.mp found
      exact (List.getElem?_inj inside ascending.nodup).mp (found.trans again.symm)

theorem keepDual {lower upper : Nat} {dual : Dual} (orderly : bench.Orderly lower)
    (lower_le : lower ≤ upper) (provides : bench.Provides lower upper dual)
    (out : Option String) : (bench.keepDual out dual).Orderly upper := by
  cases out with
  | none => exact orderly.mono lower_le
  | some name =>
      refine ⟨fun place => ?_, fun key index value literal => ?_,
        fun first second index other shared => orderly.aligned_keepDual provides shared⟩
      · by_cases here : ∃ index, place = .component name index
        · obtain ⟨index, rfl⟩ := here
          rw [held_keepDual_self, Dual.component]
          cases found : dual.handles[index]? with
          | none => trivial
          | some handle => exact provides.within handle (List.mem_of_getElem? found)
        · rw [held_keepDual_of_ne _ _ _ (not_exists.mp here)]
          exact (orderly.within place).mono lower_le
      · obtain absurd | ⟨source, same⟩ | ⟨ascending, found⟩ := origin provides literal
        · cases absurd
        · exact orderly.recorded source index value same
        · obtain ⟨_, absurd, -⟩ := ascending.isNew (List.mem_of_getElem? found)
          cases absurd

theorem operand (orderly : bench.Orderly size) (operand : Operand) :
    (bench.handle operand).Within size := by
  cases operand with
  | named name => exact orderly.within (.scalar name)
  | literal value => trivial

theorem handles (orderly : bench.Orderly size) (name : String) :
    ∀ handle ∈ (bench.dual name).handles, handle.Within size := by
  intro handle member
  obtain ⟨index, found⟩ := List.getElem?_of_mem member
  have within := orderly.within (.component name index)
  rw [held, Dual.component_eq found] at within
  exact within

end Orderly

theorem gives_scalarStep (orderly : bench.Orderly size) (request : ScalarRequest) :
    (bench.scalarStep request).Gives fun lower upper handle =>
      size ≤ lower → handle.Within upper := by
  have new (kind : Kind) (symbol : String) (operands : List Handle) :
      (apply kind symbol operands).Gives fun lower upper handle =>
        size ≤ lower → handle.Within upper :=
    (gives_apply kind symbol operands).imp fun _ _ _ _ latest _ => latest.isNew.within
  cases request with
  | constant value =>
      exact (gives_constant value).imp fun _ _ _ _ latest _ => latest.isNew.within
  | parameter name => exact new _ _ _
  | output name value => exact new _ _ _
  | nop => exact new _ _ _
  | materialize value =>
      refine (gives_materialize _).imp fun lower upper given le settles reached => ?_
      exact settles.within le trivial ((orderly.operand value).mono reached)
  | unary operator value => exact new _ _ _
  | binary operator left right => exact new _ _ _
  | call name operands => exact new _ _ _
  | ternary condition first second => exact new _ _ _
  | copy value => exact .pure fun _ reached => (orderly.operand value).mono reached
  | primal name =>
      exact .pure fun _ reached => (orderly.handles name _ (.head _)).mono reached
  | partialAt name slot =>
      simp only [scalarStep]
      cases read : (bench.dual name).partialAt slot with
      | ok handle =>
          have member := Dual.mem_partials_of_partialAt read
          exact .pure fun _ reached => (orderly.handles name _ (.tail _ member)).mono
            reached
      | error fault => exact .throw _

theorem gives_dualStep (orderly : bench.Orderly size) {request : DualRequest}
    (step : (Request.dual request).isStep = true) :
    (bench.dualStep request).Gives fun lower upper dual =>
      size ≤ lower → bench.Provides lower upper dual := by
  have new {step : Recording Dual}
      (ascends : step.Gives fun lower upper dual => Ascending upper lower dual.handles) :
      step.Gives fun lower upper dual => size ≤ lower →
        bench.Provides lower upper dual := by
    refine ascends.imp fun lower upper dual _ ascending _ => ?_
    exact ⟨fun handle member => (ascending.isNew member).within, .inl ascending.tail⟩
  have laid {step : Recording Dual} {count : Nat}
      (lays : step.Gives fun lower upper dual => dual.LaidOut count lower upper) :
      step.Gives fun lower upper dual => size ≤ lower → bench.Provides lower upper dual :=
    new (lays.imp fun _ _ _ _ laid => laid.ascending)
  cases request with
  | seeded value slot dims =>
      exact new ((Dual.gives_seeded value slot dims).imp fun _ _ _ _ given => given.2)
  | constant value dims => exact laid (Dual.gives_constant value dims)
  | ofHandle primal dims =>
      refine (Dual.gives_ofHandle _ dims).imp fun lower upper dual le given reached => ?_
      obtain ⟨same, -, ascending⟩ := given
      refine ⟨List.forall_mem_cons.mpr ⟨?_, fun handle member => ?_⟩, .inl ascending⟩
      · rw [same]
        exact (orderly.operand primal).mono (Nat.le_trans reached le)
      · exact (ascending.isNew member).within
  | literal primal partials => cases step
  | unary operation name => exact laid (operation.gives_apply _)
  | binary operation left right => exact laid (operation.gives_apply _ _)
  | scale name factor => exact laid (Dual.gives_scale _ _)
  | addScalar name scalar =>
      refine (Dual.gives_addScalar _ _).imp fun lower upper dual le given reached => ?_
      obtain ⟨new, same, -⟩ := given
      refine ⟨List.forall_mem_cons.mpr ⟨new.within, fun handle member => ?_⟩,
        .inr fun index handle found => ⟨name, ?_⟩⟩
      · rw [same] at member
        exact (orderly.handles name handle (.tail _ member)).mono
          (Nat.le_trans reached le)
      · rw [same] at found
        exact Dual.component_eq found
  | copy name =>
      refine .pure fun lower reached => ⟨fun handle member => ?_, .inr ?_⟩
      · exact (orderly.handles name handle member).mono reached
      · exact fun index handle found => ⟨name, Dual.component_eq found⟩

theorem gives_assignment (orderly : bench.Orderly size) (destination : String)
    (source : Operand) :
    (Recording.assign (bench.handle (.named destination)) (bench.handle source)).Gives
      fun lower upper given => size ≤ lower → given.Within upper :=
  (gives_assign _ _).imp fun _ _ _ le settles reached =>
    settles.within le ((orderly.operand (.named destination)).mono reached)
      ((orderly.operand source).mono reached)

theorem provides_assign (destination source : String) {session : Session}
    (orderly : bench.Orderly session.graph.size) :
    bench.Provides session.graph.size
      (((bench.dual destination).assign (bench.dual source)).run session).2.graph.size
      (((bench.dual destination).assign (bench.dual source)).run session).1.1 := by
  have size_le :=
    (Dual.grows_assign .all (bench.dual destination) (bench.dual source) session).size_le
  refine ⟨fun handle member => ?_, .inr fun index handle found => ?_⟩
  · obtain ⟨index, found⟩ := List.getElem?_of_mem member
    obtain rfl | rfl | ⟨-, new⟩ := Dual.origin_of_assign found
    · exact (orderly.within (.component destination index)).mono size_le
    · exact (orderly.within (.component source index)).mono size_le
    · exact new.within
  · have found : (((bench.dual destination).assign (bench.dual source)).run
        session).1.1.handles[index + 1]? = some handle := found
    obtain kept | taken | ⟨⟨value, literal⟩, -⟩ := Dual.origin_of_assign found
    · exact ⟨destination, kept.symm⟩
    · exact ⟨source, taken.symm⟩
    · exact (orderly.recorded source index value literal).elim

variable {name : String} {place : Nat}

theorem runStep_of_run {step : StateM Session α} {result : α} {after : Session}
    (named : bench.sessions.find? name = some place)
    (ran : step.run (bench.sessionOf name) = (result, after)) :
    bench.studio.runStep (bench.sessions.find? name) step =
      (result, (bench.recorded place after).studio) := by
  rw [sessionOf, named] at ran
  rw [named, Studio.runStep_some, ran]
  rfl

theorem perform_scalar_of_error {request : ScalarRequest} {fault : RecordingFault}
    {after : Session} (out : Option String)
    (named : bench.sessions.find? name = some place)
    (ran : (bench.scalarStep request).runOn (bench.sessionOf name) =
      (.error fault, after)) :
    bench.perform name out (.scalar request) =
      (.error fault, bench.recorded place after) := by
  simp only [perform, runStep_of_run named ran]
  rfl

theorem perform_dual_of_error {request : DualRequest} {fault : RecordingFault}
    {after : Session} (out : Option String)
    (named : bench.sessions.find? name = some place)
    (ran : (bench.dualStep request).runOn (bench.sessionOf name) =
      (.error fault, after)) :
    bench.perform name out (.dual request) =
      (.error fault, bench.recorded place after) := by
  simp only [perform, runStep_of_run named ran]
  rfl

theorem perform_assign_of_ok {destination : String} {source : Operand} {given : Handle}
    {after : Session} (out : Option String)
    (named : bench.sessions.find? name = some place)
    (ran : (Recording.assign (bench.handle (.named destination))
      (bench.handle source)).runOn (bench.sessionOf name) = (.ok given, after)) :
    bench.perform name out (.assign destination source) =
      (.ok (.handle given),
        (bench.recorded place after).keepHandle (some destination) given) := by
  simp only [perform, runStep_of_run named ran]
  rfl

theorem perform_assign_of_error {destination : String} {source : Operand}
    {fault : RecordingFault} {after : Session} (out : Option String)
    (named : bench.sessions.find? name = some place)
    (ran : (Recording.assign (bench.handle (.named destination))
      (bench.handle source)).runOn (bench.sessionOf name) = (.error fault, after)) :
    bench.perform name out (.assign destination source) =
      (.error fault, bench.recorded place after) := by
  simp only [perform, runStep_of_run named ran]
  rfl

theorem perform_assignDual {destination source : String} {given : Dual}
    {outcome : Except RecordingFault Unit} {after : Session} (out : Option String)
    (named : bench.sessions.find? name = some place)
    (ran : ((bench.dual destination).assign (bench.dual source)).run
      (bench.sessionOf name) = ((given, outcome), after)) :
    bench.perform name out (.assignDual destination source) =
      (outcome.map fun _ => .dual given,
        (bench.recorded place after).keepDual (some destination) given) := by
  simp only [perform, runStep_of_run named ran]
  rfl

/-- The session named records, and the variables are orderly in its trace. -/
structure Coherent (bench : Workbench) (name : String) : Prop where
  started : ∃ place, bench.sessions.find? name = some place ∧
    place < bench.studio.sessions.size
  isOpen : (bench.sessionOf name).IsOpen
  orderly : bench.Orderly (bench.sessionOf name).graph.size

theorem Orderly.afterRecording (orderly : bench.Orderly size) (place : Nat)
    (after : Session) : (bench.recorded place after).Orderly size :=
  ⟨orderly.within, orderly.recorded, orderly.aligned⟩

theorem Provides.afterRecording {lower upper : Nat} {dual : Dual}
    (provides : bench.Provides lower upper dual) (place : Nat) (after : Session) :
    (bench.recorded place after).Provides lower upper dual :=
  ⟨provides.within, provides.partials⟩

theorem coherent_of_recorded {next : Workbench} {after : Session} {sort : Node → Prop}
    (coherent : bench.Coherent name) (named : bench.sessions.find? name = some place)
    (inside : place < bench.studio.sessions.size)
    (grown : (bench.sessionOf name).Grows sort after)
    (sameSessions : next.sessions = bench.sessions)
    (sameStudio : next.studio = (bench.recorded place after).studio)
    (orderly : next.Orderly after.graph.size) : next.Coherent name := by
  obtain ⟨reached, started⟩ := sessionOf_of_recorded named inside sameSessions sameStudio
  refine ⟨started, ?_, ?_⟩
  · rw [reached]
    exact grown.isOpen coherent.isOpen
  · rw [reached]
    exact orderly

namespace Coherent

theorem recorded {after : Session} {sort : Node → Prop} (coherent : bench.Coherent name)
    (named : bench.sessions.find? name = some place)
    (inside : place < bench.studio.sessions.size)
    (grown : (bench.sessionOf name).Grows sort after) :
    (bench.recorded place after).Coherent name :=
  coherent_of_recorded coherent named inside grown rfl rfl
    ((coherent.orderly.mono grown.size_le).afterRecording place after)

theorem keepHandle {handle : Handle} {after : Session} {sort : Node → Prop}
    (coherent : bench.Coherent name) (out : Option String)
    (named : bench.sessions.find? name = some place)
    (inside : place < bench.studio.sessions.size)
    (grown : (bench.sessionOf name).Grows sort after)
    (within : handle.Within after.graph.size) :
    ((bench.recorded place after).keepHandle out handle).Coherent name :=
  coherent_of_recorded coherent named inside grown (by cases out <;> rfl)
    (by cases out <;> rfl)
    (((coherent.orderly.mono grown.size_le).afterRecording place after).keepHandle out
      within)

theorem keepDual {dual : Dual} {after : Session} {sort : Node → Prop}
    (coherent : bench.Coherent name) (out : Option String)
    (named : bench.sessions.find? name = some place)
    (inside : place < bench.studio.sessions.size)
    (grown : (bench.sessionOf name).Grows sort after)
    (provides : bench.Provides (bench.sessionOf name).graph.size after.graph.size dual) :
    ((bench.recorded place after).keepDual out dual).Coherent name :=
  coherent_of_recorded coherent named inside grown (by cases out <;> rfl)
    (by cases out <;> rfl)
    ((coherent.orderly.afterRecording place after).keepDual grown.size_le
      (provides.afterRecording place after) out)

/-- One step keeps the variables orderly, whether it fails or not. -/
theorem perform (coherent : bench.Coherent name) (out : Option String)
    {request : Request} (step : request.isStep = true) :
    (bench.perform name out request).2.Coherent name := by
  obtain ⟨place, named, inside⟩ := coherent.started
  cases request with
  | scalar request =>
      have grown := appends_scalarStep .all bench request (fun name _ => .all name)
        (bench.sessionOf name)
      rcases ran : (bench.scalarStep request).runOn (bench.sessionOf name) with
        ⟨fault | handle, after⟩ <;> rw [ran] at grown
      · rw [perform_scalar_of_error out named ran]
        exact coherent.recorded named inside grown
      · rw [perform_scalar_of_ok out named ran]
        exact coherent.keepHandle out named inside grown
          ((gives_scalarStep coherent.orderly request ran).2 (Nat.le_refl _))
  | assign destination source =>
      have grown := Admits.all.appends_assign (bench.handle (.named destination))
        (bench.handle source) (bench.sessionOf name)
      rcases ran : (Recording.assign (bench.handle (.named destination))
        (bench.handle source)).runOn (bench.sessionOf name) with
          ⟨fault | given, after⟩ <;>
        rw [ran] at grown
      · rw [perform_assign_of_error out named ran]
        exact coherent.recorded named inside grown
      · rw [perform_assign_of_ok out named ran]
        exact coherent.keepHandle (some destination) named inside grown
          ((gives_assignment coherent.orderly destination source ran).2 (Nat.le_refl _))
  | dual request =>
      have grown := appends_dualStep .all bench request (bench.sessionOf name)
      rcases ran : (bench.dualStep request).runOn (bench.sessionOf name) with
        ⟨fault | dual, after⟩ <;> rw [ran] at grown
      · rw [perform_dual_of_error out named ran]
        exact coherent.recorded named inside grown
      · rw [perform_dual_of_ok out named ran]
        exact coherent.keepDual out named inside grown
          ((gives_dualStep coherent.orderly step ran).2 (Nat.le_refl _))
  | assignDual destination source =>
      have grown := Dual.grows_assign .all (bench.dual destination) (bench.dual source)
        (bench.sessionOf name)
      have provides := provides_assign destination source coherent.orderly
      rcases ran : ((bench.dual destination).assign (bench.dual source)).run
        (bench.sessionOf name) with ⟨⟨given, outcome⟩, after⟩
      rw [ran] at grown provides
      rw [perform_assignDual out named ran]
      exact coherent.keepDual (some destination) named inside grown provides
  | _ => cases step

theorem after (coherent : bench.Coherent name) (commands : List Command)
    (steps : ∀ command ∈ commands, command.session = name ∧
      command.request.isStep = true) :
    (bench.after commands).Coherent name := by
  induction commands generalizing bench with
  | nil => exact coherent
  | cons command commands induction =>
      obtain ⟨⟨same, step⟩, others⟩ := List.forall_mem_cons.mp steps
      rw [after_cons, same]
      exact induction (coherent.perform command.out step) others

end Coherent

theorem orderly_of_unset (unset : ∀ place, bench.held place = .unset) :
    bench.Orderly size where
  within := by
    intro place
    rw [unset]
    trivial
  recorded := by
    intro name index value literal
    rw [unset] at literal
    cases literal
  aligned := by
    intro first second index other shared
    rw [unset] at shared
    cases shared

theorem coherent_start (name label : String) :
    (Workbench.empty.perform name none (.start label)).2.Coherent name := by
  rw [perform_start_of_idle name none label rfl]
  refine ⟨⟨0, ?_, Nat.zero_lt_one⟩, ?_, ?_⟩
  · simp [empty, Studio.empty, Names.find?_assign]
  · simp only [sessionOf, empty, Studio.empty, Names.find?_assign, if_true]
    exact ⟨rfl, rfl⟩
  · refine orderly_of_unset fun place => ?_
    cases place with
    | scalar key => rfl
    | component dual index => cases index <;> rfl

end Workbench

end CostTape
