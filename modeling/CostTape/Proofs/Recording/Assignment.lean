import CostTape.Proofs.Recording.Variables

/-! What an assignment changes: its destination, and whatever shares a slot with it. -/

namespace CostTape

universe u

variable {V : Type u} (meaning : Interpretation V)

/-- What is read through a handle once the trace has been executed. -/
def Handle.value? (graph : Graph) : Handle → Option V
  | bound id => some (meaning.contents graph id)
  | literal number => some (meaning.literal number)
  | unset => none

/-- The later session has recorded more, and has overwritten no slots but those that the
handles name. -/
structure Session.Rewrites (written : List Handle) (before after : Session) : Prop where
  isOpen : after.IsOpen
  size_le : before.graph.size ≤ after.graph.size
  contents_eq : ∀ slot : NodeId, slot.precedes before.graph.size = true →
    .bound slot ∉ written → meaning.contents after.graph slot =
      meaning.contents before.graph slot

variable {meaning}

namespace Handle

variable {graph : Graph} {handle : Handle} {value : V}

theorem denotes_iff :
    handle.Denotes meaning graph value ↔
      handle.Within graph.size ∧ handle.value? meaning graph = some value := by
  cases handle <;> simp [Denotes, Within, value?]

theorem exists_value? (meaning : Interpretation V) (graph : Graph)
    (set : handle.isSet = true) : ∃ value, handle.value? meaning graph = some value := by
  cases handle with
  | unset => cases set
  | bound id => exact ⟨_, rfl⟩
  | literal number => exact ⟨_, rfl⟩

end Handle

namespace Session.Rewrites

variable {written more : List Handle} {before middle after : Session}

theorem refl (isOpen : before.IsOpen) : before.Rewrites meaning [] before :=
  ⟨isOpen, Nat.le_refl _, fun _ _ _ => rfl⟩

theorem trans (first : before.Rewrites meaning written middle)
    (second : middle.Rewrites meaning more after) :
    before.Rewrites meaning (written ++ more) after where
  isOpen := second.isOpen
  size_le := Nat.le_trans first.size_le second.size_le
  contents_eq := by
    intro slot old untouched
    obtain ⟨early, late⟩ := not_or.mp (mt List.mem_append.mpr untouched)
    rw [second.contents_eq slot (NodeId.precedes_mono first.size_le old) late]
    exact first.contents_eq slot old early

theorem value?_eq {handle : Handle} (rewrites : before.Rewrites meaning written after)
    (within : handle.Within before.graph.size)
    (apart : ∀ other ∈ written, handle.sharesSlot other = false) :
    handle.value? meaning after.graph = handle.value? meaning before.graph := by
  cases handle with
  | unset => rfl
  | literal number => rfl
  | bound id =>
      refine congrArg some (rewrites.contents_eq id within fun member => ?_)
      have shared := apart _ member
      simp [Handle.sharesSlot] at shared

end Session.Rewrites

namespace Recording

variable {session : Session} {destination source : Handle}

theorem rewrites_materialize {value : V} (isOpen : session.IsOpen)
    (denotes : source.Denotes meaning session.graph value) :
    ∃ given after, (materialize source).runOn session = (.ok given, after) ∧
      session.Rewrites meaning [destination] after ∧
      given.value? meaning after.graph = some value := by
  obtain ⟨given, after, ran, extended, denoted⟩ := yields_materialize isOpen denotes
  refine ⟨given, after, ran, ?_, (Handle.denotes_iff.mp denoted).2⟩
  exact ⟨extended.isOpen, extended.size_le,
    fun slot old _ => extended.contents_eq slot old⟩

theorem rewrites_assign (meaning : Interpretation V) (isOpen : session.IsOpen)
    (destinationWithin : destination.Within session.graph.size)
    (sourceWithin : source.Within session.graph.size) (set : source.isSet = true) :
    ∃ given after, (assign destination source).runOn session = (.ok given, after) ∧
      session.Rewrites meaning [destination] after ∧
      given.value? meaning after.graph = source.value? meaning session.graph := by
  obtain ⟨value, read⟩ := Handle.exists_value? meaning session.graph set
  have denotes := Handle.denotes_iff.mpr ⟨sourceWithin, read⟩
  rw [read]
  cases destination with
  | unset =>
      rw [assign_eq_materialize source (by simp)]
      exact rewrites_materialize isOpen denotes
  | literal number =>
      rw [assign_eq_materialize source (by simp)]
      exact rewrites_materialize isOpen denotes
  | bound target =>
      obtain ⟨after, ran, overwrites⟩ :=
        overwrites_assign isOpen denotes destinationWithin
      refine ⟨.bound target, after, ran, ⟨overwrites.isOpen, overwrites.size_le, ?_⟩, ?_⟩
      · intro slot old untouched
        refine overwrites.contents_eq slot old fun same => untouched ?_
        rw [same]
        exact .head _
      · exact congrArg some overwrites.target_eq

end Recording

namespace Dual

open Recording

/-- No destination is read as a source later, and none comes to stand for a slot that is
overwritten later. -/
def Separate : List Handle → List Handle → Prop
  | destination :: destinations, source :: sources =>
      (∀ handle ∈ sources, handle.sharesSlot destination = false) ∧
        (∀ handle ∈ destinations, (destination.settled source).sharesSlot handle =
          false) ∧
        Separate destinations sources
  | _, _ => True

theorem separate_of_aligned {destinations sources : List Handle}
    (reads : ∀ (index other : Nat) (destination source : Handle),
      destinations[index]? = some destination → sources[other]? = some source →
      source.sharesSlot destination = true → other = index)
    (writes : ∀ (index other : Nat) (first second : Handle),
      destinations[index]? = some first → destinations[other]? = some second →
      first.sharesSlot second = true → index = other) :
    Separate destinations sources := by
  induction destinations generalizing sources with
  | nil => trivial
  | cons destination destinations induction =>
      cases sources with
      | nil => trivial
      | cons source sources =>
          refine ⟨fun handle member => ?_, fun handle member => ?_, induction ?_ ?_⟩
          · obtain ⟨index, found⟩ := List.getElem?_of_mem member
            rw [← Bool.not_eq_true]
            intro shared
            cases reads 0 (index + 1) destination handle rfl found shared
          · obtain ⟨index, found⟩ := List.getElem?_of_mem member
            rw [← Bool.not_eq_true]
            intro shared
            obtain same | same := destination.settled_eq source <;> rw [same] at shared
            · cases writes 0 (index + 1) destination handle rfl found shared
            · cases reads (index + 1) 0 handle source found rfl shared
          · intro index other first second here there shared
            exact Nat.succ.inj (reads (index + 1) (other + 1) first second here there
              shared)
          · intro index other first second here there shared
            exact Nat.succ.inj (writes (index + 1) (other + 1) first second here there
              shared)

/-- What an assignment has settled stays, unless it is overwritten itself. -/
theorem value?_of_settled {destination source given : Handle} {others : List Handle}
    {session middle after : Session}
    (ran : (Recording.assign destination source).runOn session = (.ok given, middle))
    (further : middle.Rewrites meaning others after)
    (destinationWithin : destination.Within session.graph.size)
    (sourceWithin : source.Within session.graph.size)
    (othersWithin : ∀ handle ∈ others, handle.Within session.graph.size)
    (untouched : ∀ handle ∈ others, (destination.settled source).sharesSlot handle =
      false) :
    given.value? meaning after.graph = given.value? meaning middle.graph := by
  obtain ⟨size_le, rfl | ⟨-, new⟩⟩ := gives_assign destination source ran
  · exact further.value?_eq ((destinationWithin.settled sourceWithin).mono size_le)
      untouched
  · exact further.value?_eq new.within fun handle member =>
      new.sharesSlot_eq_false (othersWithin handle member)

theorem rewrites_assignEach (meaning : Interpretation V)
    {destinations sources : List Handle} {session : Session} (isOpen : session.IsOpen)
    (sameLength : destinations.length = sources.length)
    (destinationsWithin : ∀ handle ∈ destinations, handle.Within session.graph.size)
    (sourcesWithin : ∀ handle ∈ sources, handle.Within session.graph.size)
    (set : ∀ handle ∈ sources, handle.isSet = true) :
    ∃ givens after, (assignEach destinations sources).run session =
        ((givens, .ok ()), after) ∧
      session.Rewrites meaning destinations after ∧
      (Separate destinations sources →
        givens.map (Handle.value? meaning after.graph) =
          sources.map (Handle.value? meaning session.graph)) := by
  induction destinations generalizing sources session with
  | nil =>
      obtain rfl := List.length_eq_zero_iff.mp sameLength.symm
      exact ⟨[], session, rfl, .refl isOpen, fun _ => rfl⟩
  | cons destination destinations induction =>
      cases sources with
      | nil => cases sameLength
      | cons source sources =>
          obtain ⟨oneWithin, othersWithin⟩ := List.forall_mem_cons.mp destinationsWithin
          obtain ⟨sourceWithin, restWithin⟩ := List.forall_mem_cons.mp sourcesWithin
          obtain ⟨sourceSet, restSet⟩ := List.forall_mem_cons.mp set
          obtain ⟨given, middle, ran, rewrites, read⟩ :=
            rewrites_assign meaning isOpen oneWithin sourceWithin sourceSet
          obtain ⟨givens, after, ranRest, further, readRest⟩ :=
            induction rewrites.isOpen (Nat.succ.inj sameLength)
              (fun handle member => (othersWithin handle member).mono rewrites.size_le)
              (fun handle member => (restWithin handle member).mono rewrites.size_le)
                restSet
          refine ⟨given :: givens, after, ?_, rewrites.trans further, ?_⟩
          · rw [run_assignEach_cons, ran]
            simp only [ranRest]
          · rintro ⟨unread, untouched, separate⟩
            rw [List.map_cons, List.map_cons, readRest separate, ← read]
            refine congrArg₂ List.cons ?_ (List.map_congr_left fun handle member => ?_)
            · exact value?_of_settled ran further oneWithin sourceWithin othersWithin
                untouched
            · refine rewrites.value?_eq (restWithin handle member) fun other written => ?_
              rw [List.mem_singleton.mp written]
              exact unread handle member

theorem value?_component (meaning : Interpretation V) (graph : Graph) (dual : Dual)
    (index : Nat) :
    (dual.component index).value? meaning graph =
      (dual.handles.map (Handle.value? meaning graph))[index]?.getD none := by
  rw [component, List.getElem?_map]
  cases dual.handles[index]? <;> rfl

theorem length_targets {destination source : Dual} (fits : destination.Fits source) :
    (destination.targets source).length = source.handles.length :=
  congrArg Nat.succ (fits_iff.mp fits)

theorem within_targets {destination : Dual} {size : Nat} (source : Dual)
    (within : ∀ index, (destination.component index).Within size) :
    ∀ handle ∈ destination.targets source, handle.Within size := by
  intro handle member
  obtain ⟨index, found⟩ := List.getElem?_of_mem member
  rw [← component_of_targets found]
  exact within index

/-- The primal of the destination takes no part in the assignment of the partials: it is
not the source of one, and the slot that it comes to stand for is not the destination of
one. -/
def PrimalApart (destination source : Dual) : Prop :=
  (∀ handle ∈ source.partials, handle.sharesSlot destination.primal = false) ∧
    ∀ handle ∈ destination.partials,
      (destination.primal.settled source.primal).sharesSlot handle = false

instance (destination source : Dual) : Decidable (destination.PrimalApart source) :=
  inferInstanceAs (Decidable (_ ∧ _))

theorem PrimalApart.untouched {destination source : Dual}
    (apart : destination.PrimalApart source) {index : Nat} {handle : Handle}
    (found : (destination.targets source)[index + 1]? = some handle) :
    (destination.primal.settled source.primal).sharesSlot handle = false := by
  obtain ⟨primal, none | slots⟩ := destination
  · rw [List.eq_of_mem_replicate (List.mem_of_getElem? found)]
    cases primal.settled source.primal <;> rfl
  · exact apart.2 handle (List.mem_of_getElem? found)

end Dual

namespace Workbench

open Recording

def reading (meaning : Interpretation V) (bench : Workbench) (name : String)
    (place : Variable) : Option V :=
  (bench.held place).value? meaning (bench.sessionOf name).graph

variable {bench : Workbench} {name : String}

theorem Orderly.separate {size : Nat} {destination source : String}
    (orderly : bench.Orderly size)
    (apart : (bench.dual destination).PrimalApart (bench.dual source)) :
    Dual.Separate ((bench.dual destination).targets (bench.dual source))
      (bench.dual source).handles := by
  have written {index : Nat} {handle : Handle}
      (found : ((bench.dual destination).targets (bench.dual source))[index + 1]? =
        some handle) : bench.held (.component destination (index + 1)) = handle :=
    Dual.component_of_targets found
  have read {index : Nat} {handle : Handle}
      (found : (bench.dual source).handles[index + 1]? = some handle) :
      bench.held (.component source (index + 1)) = handle :=
    Dual.component_eq found
  refine ⟨apart.1, fun handle member => ?_, Dual.separate_of_aligned ?_ ?_⟩
  · obtain ⟨index, found⟩ := List.getElem?_of_mem member
    exact apart.untouched found
  · intro index other first second here there shared
    rw [← written here, ← read there] at shared
    exact orderly.aligned source destination other index shared
  · intro index other first second here there shared
    rw [← written here, ← written there] at shared
    exact orderly.aligned destination destination index other shared

theorem Coherent.reading_assign (coherent : bench.Coherent name)
    (meaning : Interpretation V) (out : Option String) (destination : String)
    {source : Operand} (set : (bench.handle source).isSet = true) :
    ∃ given next, bench.perform name out (.assign destination source) =
        (.ok (.handle given), next) ∧
      next.reading meaning name (.scalar destination) =
        (bench.handle source).value? meaning (bench.sessionOf name).graph ∧
      ∀ place, place ≠ .scalar destination → next.reading meaning name place =
        if (bench.held place).sharesSlot (bench.held (.scalar destination)) then
          next.reading meaning name (.scalar destination)
        else
          bench.reading meaning name place := by
  obtain ⟨place, named, inside⟩ := coherent.started
  obtain ⟨given, after, ran, rewrites, read⟩ :=
    rewrites_assign meaning coherent.isOpen
      (coherent.orderly.operand (.named destination))
      (coherent.orderly.operand source) set
  have reached :
      ((bench.recorded place after).keepHandle (some destination) given).sessionOf
      name = after := sessionOf_recorded after named inside
  refine ⟨given, _, perform_assign_of_ok out named ran, ?_, fun other apart => ?_⟩
  · rw [reading, reached, held_keepHandle_self]
    exact read
  · rw [reading, reached, reading, reached, held_keepHandle_self,
      held_keepHandle_of_ne _ _ _ apart]
    split
    next shared =>
      -- The other variable names the destination's node, which the destination keeps.
      obtain ⟨id, here, there⟩ := Handle.sharesSlot_iff.mp shared
      have settles := (gives_assign _ _ ran).2
      rw [show bench.handle (.named destination) = .bound id from there] at settles
      exact congrArg _ (here.trans settles.eq_of_bound.symm)
    next free =>
      refine rewrites.value?_eq (coherent.orderly.within other) fun handle written => ?_
      rw [List.mem_singleton.mp written]
      exact Bool.eq_false_iff.mpr free

theorem Coherent.reading_assignDual (coherent : bench.Coherent name)
    (meaning : Interpretation V) (out : Option String) {destination source : String}
    (set : ∀ handle ∈ (bench.dual source).handles, handle.isSet = true)
    (fits : (bench.dual destination).Fits (bench.dual source)) :
    ∃ given next, bench.perform name out (.assignDual destination source) =
        (.ok (.dual given), next) ∧
      ((bench.dual destination).PrimalApart (bench.dual source) → ∀ index,
        next.reading meaning name (.component destination index) =
          bench.reading meaning name (.component source index)) ∧
      ∀ place, (∀ index, place ≠ .component destination index) →
        (∀ index, (bench.held place).sharesSlot
            (bench.held (.component destination index)) = true →
          next.reading meaning name place =
            next.reading meaning name (.component destination index)) ∧
        ((∀ index, (bench.held place).sharesSlot
            (bench.held (.component destination index)) = false) →
          next.reading meaning name place = bench.reading meaning name place) := by
  obtain ⟨place, named, inside⟩ := coherent.started
  have orderly := coherent.orderly
  obtain ⟨givens, after, assigned, rewrites, read⟩ :=
    Dual.rewrites_assignEach meaning coherent.isOpen (Dual.length_targets fits)
      (Dual.within_targets (bench.dual source) fun index =>
        orderly.within (.component destination index))
      (orderly.handles source) set
  obtain ⟨given, ran, same⟩ := Dual.exists_run_assign fits (bench.sessionOf name)
  rw [assigned] at ran same
  have reached :
      ((bench.recorded place after).keepDual (some destination) given).sessionOf
      name = after := sessionOf_recorded after named inside
  refine ⟨given, _, perform_assignDual out named ran, fun apart index => ?_,
    fun other elsewhere => ⟨fun index shared => ?_, fun free => ?_⟩⟩
  · rw [reading, reached, held_keepDual_self, Dual.value?_component, same,
      read (orderly.separate apart), ← Dual.value?_component]
    rfl
  · obtain ⟨id, here, there⟩ := Handle.sharesSlot_iff.mp shared
    have kept := Dual.component_of_assign (bench.dual source) (bench.sessionOf name) there
    rw [ran] at kept
    rw [reading, reached, reading, reached, held_keepDual_self,
      held_keepDual_of_ne _ _ _ elsewhere]
    exact congrArg _ (here.trans kept.symm)
  · rw [reading, reached, held_keepDual_of_ne _ _ _ elsewhere]
    refine rewrites.value?_eq (orderly.within other) fun handle written => ?_
    obtain ⟨index, found⟩ := List.getElem?_of_mem written
    rw [← Dual.component_of_targets found]
    exact free index

/-- A session is started, and commands are obeyed in it. -/
def afterStart (name label : String) (commands : List Command) : Workbench :=
  (Workbench.empty.perform name none (.start label)).2.after commands

/-- Whatever has been recorded and assigned in a session, the next assignment from a
source that is set succeeds.  The destination then reads what the source read before; so
does what shares a slot with it, and all else reads what it read before.  For a dual
number this holds of the primal and of every partial, as long as the primal takes no part
in the assignment of the partials. -/
theorem assignment_changes_only_shared_slots (meaning : Interpretation V)
    (name label : String) (commands : List Command)
    (steps : ∀ command ∈ commands, command.session = name ∧
      command.request.isStep = true) :
    let bench := afterStart name label commands
    (∀ (out : Option String) (destination : String) (source : Operand),
      (bench.handle source).isSet = true →
      ∃ given next, bench.perform name out (.assign destination source) =
          (.ok (.handle given), next) ∧
        next.reading meaning name (.scalar destination) =
          (bench.handle source).value? meaning (bench.sessionOf name).graph ∧
        ∀ place, place ≠ .scalar destination → next.reading meaning name place =
          if (bench.held place).sharesSlot (bench.held (.scalar destination)) then
            next.reading meaning name (.scalar destination)
          else
            bench.reading meaning name place) ∧
    (∀ (out : Option String) (destination source : String),
      (∀ handle ∈ (bench.dual source).handles, handle.isSet = true) →
      (bench.dual destination).Fits (bench.dual source) →
      ∃ given next, bench.perform name out (.assignDual destination source) =
          (.ok (.dual given), next) ∧
        ((bench.dual destination).PrimalApart (bench.dual source) → ∀ index,
          next.reading meaning name (.component destination index) =
            bench.reading meaning name (.component source index)) ∧
        ∀ place, (∀ index, place ≠ .component destination index) →
          (∀ index, (bench.held place).sharesSlot
              (bench.held (.component destination index)) = true →
            next.reading meaning name place =
              next.reading meaning name (.component destination index)) ∧
          ((∀ index, (bench.held place).sharesSlot
              (bench.held (.component destination index)) = false) →
            next.reading meaning name place = bench.reading meaning name place)) := by
  intro bench
  have coherent : bench.Coherent name := (coherent_start name label).after commands steps
  refine ⟨fun out destination source set => ?_, fun out destination source set fits => ?_⟩
  · exact coherent.reading_assign meaning out destination set
  · exact coherent.reading_assignDual meaning out set fits

/-- Literals stand for themselves. -/
def literals : Interpretation Float :=
  ⟨fun _ => 0.0, id, fun _ => 0.0, fun _ _ _ => 0.0⟩

/-- The scalars `a` and `b` share a slot, and so do the partials of `x` and `z`. -/
def sharingCommands : List Command :=
  [⟨"s", some "a", .scalar (.constant 1.0)⟩, ⟨"s", none, .assign "b" (.named "a")⟩,
    ⟨"s", some "c", .scalar (.constant 5.0)⟩, ⟨"s", some "x", .dual (.seeded 3.0 0 1)⟩,
    ⟨"s", some "z", .dual (.addScalar "x" (.named "c"))⟩,
    ⟨"s", some "y", .dual (.constant 4.0 1)⟩]

theorem sharing_variables_follow :
    let bench := afterStart "s" "1" sharingCommands
    (∃ given next, bench.perform "s" none (.assign "b" (.literal 2.0)) =
        (.ok (.handle given), next) ∧
      next.reading literals "s" (.scalar "a") = some 2.0 ∧
      next.reading literals "s" (.scalar "c") = some 5.0) ∧
    (∃ given next, bench.perform "s" none (.assignDual "x" "y") =
      (.ok (.dual given), next) ∧
      next.reading literals "s" (.component "x" 0) = some 4.0 ∧
      next.reading literals "s" (.component "z" 1) = some 0.0) := by
  intro bench
  obtain ⟨scalars, duals⟩ :=
    assignment_changes_only_shared_slots literals "s" "1" sharingCommands (by decide)
  constructor
  · obtain ⟨given, next, performed, read, others⟩ := scalars none "b" (.literal 2.0) rfl
    refine ⟨given, next, performed, ?_, ?_⟩
    · rw [others (.scalar "a") (by decide), if_pos (by decide), read]
      rfl
    · rw [others (.scalar "c") (by decide), if_neg (by decide)]
      decide +kernel
  · obtain ⟨given, next, performed, read, others⟩ :=
      duals none "x" "y" (by decide) (.inr rfl)
    have apart : (bench.dual "x").PrimalApart (bench.dual "y") := by decide
    refine ⟨given, next, performed, ?_, ?_⟩
    · rw [read apart 0]
      rfl
    · rw [(others (.component "z" 1) (by simp)).1 1 (by decide), read apart 1]
      decide +kernel

/-- The primal of `y` is the partial of `x`. -/
def entangledCommands : List Command :=
  [⟨"s", some "x", .dual (.constant 3.0 1)⟩, ⟨"s", some "h", .scalar (.partialAt "x" 0)⟩,
    ⟨"s", some "y", .dual (.ofHandle (.named "h") 1)⟩]

/-- An assignment can change a variable other than its destination, and one to a dual
number can leave another partial there than the source had. -/
theorem assignment_can_change_others :
    (¬∀ commands : List Command,
      (∀ command ∈ commands, command.session = "s" ∧ command.request.isStep = true) →
      ∀ (destination : String) (source : Operand) (place : Variable),
        ((afterStart "s" "1" commands).handle source).isSet = true →
        place ≠ .scalar destination →
        ((afterStart "s" "1" commands).perform "s" none
            (.assign destination source)).2.reading literals "s" place =
          (afterStart "s" "1" commands).reading literals "s" place) ∧
    (¬∀ commands : List Command,
      (∀ command ∈ commands, command.session = "s" ∧ command.request.isStep = true) →
      ∀ (destination source : String) (index : Nat),
        (∀ handle ∈ ((afterStart "s" "1" commands).dual source).handles,
          handle.isSet = true) →
        ((afterStart "s" "1" commands).dual destination).Fits
          ((afterStart "s" "1" commands).dual source) →
        ((afterStart "s" "1" commands).perform "s" none
            (.assignDual destination source)).2.reading literals "s"
              (.component destination index) =
          (afterStart "s" "1" commands).reading literals "s"
            (.component source index)) := by
  constructor
  · intro unchanged
    have same := unchanged sharingCommands (by decide) "b" (.literal 2.0)
      (.scalar "a") rfl (by decide)
    revert same
    decide +kernel
  · intro assigned
    have same := assigned entangledCommands (by decide) "y" "x" 1 (by decide) (.inr rfl)
    revert same
    decide +kernel

end Workbench

end CostTape
