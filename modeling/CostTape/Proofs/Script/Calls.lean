import CostTape.Proofs.Dual.Recorded
import CostTape.Script.Builtin

/-! Calls of the recording functions, one after the other, on whatever values: they keep
all that they have returned recorded, and a call that fails has done nothing. -/

namespace CostTape.Script

open Interpretation

/-- The fault lies with the arguments.  The one fault of this kind that recording finds is
an assignment between dual numbers of different length. -/
def CallFault.IsOrdinary (fault : CallFault) : Prop :=
  ∀ subject cause, fault = .recording subject cause →
    ∃ left right, cause = .unequalDims "assign" left right

namespace Value

/-- The value is an expression of the graph. -/
def IsRecorded (graph : Graph) : Value → Prop
  | handle scalar => scalar.IsRecorded graph
  | dual number => number.IsRecorded graph
  | _ => False

def isExpression : Value → Bool
  | handle _ | dual _ => true
  | _ => false

/-- An expression of the graph, or no expression at all. -/
def IsSound (graph : Graph) (value : Value) : Prop :=
  value.isExpression = true → value.IsRecorded graph

variable {graph : Graph} {value : Value}

theorem IsRecorded.mono {later : Graph} (size_le : graph.size ≤ later.size)
    (recorded : value.IsRecorded graph) : value.IsRecorded later := by
  cases value with
  | handle scalar => exact Handle.IsRecorded.mono size_le recorded
  | dual number => exact Dual.IsRecorded.mono size_le recorded
  | _ => exact recorded.elim

theorem IsSound.of_dual? {number : Dual} (sound : value.IsSound graph)
    (found : value.dual? = some number) : number.IsRecorded graph := by
  cases value with
  | dual number =>
      cases found
      exact sound rfl
  | _ => cases found

theorem IsSound.of_scalar? {scalar : Handle} (sound : value.IsSound graph)
    (found : value.scalar? = some scalar) : scalar.Denotes indifferent graph () := by
  cases value with
  | handle scalar =>
      cases found
      exact Handle.IsRecorded.denotes (sound rfl)
  | literal literal =>
      obtain ⟨number, -, rfl⟩ := Option.map_eq_some_iff.mp found
      exact Handle.denotes_literal number
  | _ => cases found

end Value

namespace RecordingCall

universe u

variable {V : Type u} {meaning : Interpretation V} {session : Session}
variable {call : RecordingCall α} {condition : Graph → α → Prop}

/-- The call succeeds, overwrites nothing, and gives a result of which the condition
holds. -/
def Yields (meaning : Interpretation V) (call : RecordingCall α) (session : Session)
    (condition : Graph → α → Prop) : Prop :=
  ∃ value after, call.runOn session = (.ok value, after) ∧
    session.Extends meaning after ∧ condition after.graph value

/-- The call succeeds, or its arguments are at fault and it does nothing. -/
def Settles (call : RecordingCall α) (session : Session) (condition : Graph → α → Prop) :
    Prop :=
  call.Yields indifferent session condition ∨
    ∃ fault, call.runOn session = (.error fault, session) ∧ fault.IsOrdinary

theorem runOn_bind (call : RecordingCall α) (next : α → RecordingCall β)
    (session : Session) :
    (call >>= next).runOn session =
      match call.runOn session with
      | (.ok value, after) => (next value).runOn after
      | (.error fault, after) => (.error fault, after) := by
  simp only [runOn, ExceptT.run_bind]
  simp only [bind, StateT.bind]
  rcases ExceptT.run call session with ⟨fault | value, after⟩ <;> rfl

theorem runOn_perform (name : String) (step : Recording α) (session : Session) :
    (perform name step).runOn session =
      ((step.runOn session).1.mapError (CallFault.recording name),
        (step.runOn session).2) := rfl

theorem runOn_lift (step : StateM Session α) (session : Session) :
    runOn (ExceptT.lift step) session =
      (.ok (step.run session).1, (step.run session).2) := rfl

theorem Yields.pure {value : α} (isOpen : session.IsOpen)
    (holds : condition session.graph value) :
    (pure value : RecordingCall α).Yields meaning session condition :=
  ⟨value, session, rfl, .refl isOpen, holds⟩

theorem Yields.bind {next : α → RecordingCall β} {last : Graph → β → Prop}
    (first : call.Yields meaning session condition)
    (second : ∀ (middle : Session) (value : α), session.Extends meaning middle →
      condition middle.graph value → (next value).Yields meaning middle last) :
    (call >>= next).Yields meaning session last := by
  obtain ⟨value, middle, ran, extended, holds⟩ := first
  obtain ⟨result, after, finished, further, final⟩ := second middle value extended holds
  refine ⟨result, after, ?_, extended.trans further, final⟩
  rw [runOn_bind, ran]
  exact finished

theorem yields_perform {step : Recording α} (name : String)
    (yields : step.Yields meaning session condition) :
    (perform name step).Yields meaning session condition := by
  obtain ⟨value, after, ran, extended, holds⟩ := yields
  refine ⟨value, after, ?_, extended, holds⟩
  rw [runOn_perform, ran]
  rfl

theorem yields_map_perform {step : Recording α} (convert : α → β) (name : String)
    {last : Graph → β → Prop}
    (yields : step.Yields meaning session fun graph value => last graph (convert value)) :
    (convert <$> perform name step).Yields meaning session last := by
  rw [map_eq_pure_bind]
  exact (yields_perform name yields).bind fun middle value extended holds =>
    .pure extended.isOpen holds

theorem settles_throw {fault : CallFault} (ordinary : fault.IsOrdinary) :
    (throw fault : RecordingCall α).Settles session condition :=
  .inr ⟨fault, rfl, ordinary⟩

/-- The call fails, and may have recorded something before. -/
def Fails (call : RecordingCall α) (session : Session) : Prop :=
  ∃ fault after, call.runOn session = (.error fault, after) ∧
    session.Extends indifferent after

theorem fails_map_perform {step : Recording α} {fault : RecordingFault} {after : Session}
    (convert : α → β) (name : String) (ran : step.runOn session = (.error fault, after))
    (extended : session.Extends indifferent after) :
    (convert <$> perform name step).Fails session := by
  refine ⟨.recording name fault, after, ?_, extended⟩
  rw [map_eq_pure_bind, runOn_bind, runOn_perform, ran]
  rfl

theorem fails_demand {place : String} {what : Expectation} {value : Value}
    {found : Option β} {next : β → RecordingCall α} (isOpen : session.IsOpen)
    (each : ∀ result, (next result).Fails session) :
    (demand place what value found >>= next).Fails session := by
  cases found with
  | none => exact ⟨_, session, rfl, .refl isOpen⟩
  | some result => exact each result

theorem Settles.bindYields {next : α → RecordingCall β} {last : Graph → β → Prop}
    (first : call.Settles session condition)
    (second : ∀ (middle : Session) (value : α), session.Extends indifferent middle →
      condition middle.graph value → (next value).Yields indifferent middle last) :
    (call >>= next).Settles session last := by
  rcases first with yields | ⟨fault, refused, ordinary⟩
  · exact .inl (yields.bind second)
  · refine .inr ⟨fault, ?_, ordinary⟩
    rw [runOn_bind, refused]

theorem settles_demand {place : String} {what : Expectation} {value : Value}
    {found : Option β} {next : β → RecordingCall α}
    (each : ∀ result, found = some result → (next result).Settles session condition) :
    (demand place what value found >>= next).Settles session condition := by
  cases found with
  | none => exact settles_throw fun _ _ same => nomatch same
  | some result => exact each result rfl

end RecordingCall

namespace Builtin

open RecordingCall

variable {session : Session}

/-- What every recording function is shown to do. -/
abbrev SettlesRecorded (call : RecordingCall Value) (session : Session) : Prop :=
  call.Settles session fun graph value => value.IsRecorded graph

theorem yields_apply_recorded {kind : Kind} {symbol : String} {handles : List Handle}
    (isOpen : session.IsOpen) (computes : kind.isOperation = true)
    (usable : ∀ handle ∈ handles, handle.Denotes indifferent session.graph ()) :
    (Recording.apply kind symbol handles).Yields indifferent session fun graph handle =>
      handle.IsRecorded graph := by
  have denote : List.Forall₂ (Handle.Denotes indifferent session.graph) handles
      (handles.map fun _ => ()) :=
    List.forall₂_map_right_iff.mpr (List.forall₂_same.mpr usable)
  exact (Recording.yields_apply_stored isOpen computes denote).imp
    fun _ _ _ stored => stored.recorded

theorem settles_applyConstant (name : String) (args : List Value)
    (isOpen : session.IsOpen) : SettlesRecorded (applyConstant name args) session := by
  unfold applyConstant
  split
  · refine settles_demand fun literal _ => .inl (yields_map_perform _ name ?_)
    exact (Recording.yields_constant_stored literal isOpen).imp
      fun _ _ _ stored => stored.recorded
  · exact settles_throw fun _ _ same => nomatch same

theorem settles_applyParam (name : String) (args : List Value) (isOpen : session.IsOpen) :
    SettlesRecorded (applyParam name args) session := by
  unfold applyParam
  split
  · refine settles_demand fun input _ => .inl (yields_map_perform _ name ?_)
    exact (Recording.yields_parameter_stored input isOpen).imp
      fun _ _ _ stored => stored.recorded
  · exact settles_throw fun _ _ same => nomatch same

theorem settles_applyOutput (name : String) {args : List Value} (isOpen : session.IsOpen)
    (sound : ∀ value ∈ args, value.IsSound session.graph) :
    SettlesRecorded (applyOutput name args) session := by
  unfold applyOutput
  split
  next target value =>
    refine settles_demand fun output _ => ?_
    split
    · exact settles_throw fun _ _ same => nomatch same
    · refine settles_demand fun operand found => .inl (yields_map_perform _ name ?_)
      have usable := (sound value (by simp)).of_scalar? found
      exact yields_apply_recorded isOpen rfl (by simpa using usable)
  · exact settles_throw fun _ _ same => nomatch same

theorem settles_applyUnary (operator : UnaryOperator) (name : String) {args : List Value}
    (isOpen : session.IsOpen) (sound : ∀ value ∈ args, value.IsSound session.graph) :
    SettlesRecorded (applyUnary operator name args) session := by
  unfold applyUnary
  split
  next value =>
    have sound := sound value (by simp)
    cases isDual : value.dual? with
    | some number =>
        cases Dual.unary? operator with
        | none => exact settles_throw fun _ _ same => nomatch same
        | some operation =>
            refine .inl (yields_map_perform _ name ?_)
            exact (Dual.yields_unary_carried operation isOpen
              (sound.of_dual? isDual).carries).imp fun _ _ _ carries => carries.recorded
    | none =>
        refine settles_demand fun operand found => .inl (yields_map_perform _ name ?_)
        exact (Recording.yields_unary_stored operator isOpen (sound.of_scalar? found)).imp
          fun _ _ _ stored => stored.recorded
  · exact settles_throw fun _ _ same => nomatch same

section

universe u

variable {V : Type u} {meaning : Interpretation V} {count : Nat} {a b : V}

/-- A scalar beside a dual number is lifted to as many partials as that has, so the
lifting cannot fail once it has recorded anything. -/
theorem yields_lift (name : String) {handle : Handle} (isOpen : session.IsOpen)
    (denotes : handle.Denotes meaning session.graph a)
    (count_le : count ≤ Dual.maximalDims) : (perform name do
      Dual.ofHandle (← Recording.materialize handle) count).Yields meaning session
        fun graph dual => dual.Carries meaning graph count a := by
  refine yields_perform name ((Recording.yields_materialize_stored isOpen denotes).bind
    fun middle primal extended stores => ?_)
  exact (Dual.yields_ofHandle_carried extended.isOpen stores count_le).imp
    fun _ _ _ carries => carries.1

theorem liftDuals_checked_of_eq (name : String) {first second : Dual}
    (same : first.dims = second.dims) :
    liftDuals.checked name first second = pure (some (first, second)) :=
  if_pos same

/-- Two dual numbers of one length with the values as their primals. -/
def LiftedTo (meaning : Interpretation V) (count : Nat) (a b : V) (graph : Graph)
    (pair : Option (Dual × Dual)) : Prop :=
  ∃ first second, pair = some (first, second) ∧ first.Carries meaning graph count a ∧
    second.Carries meaning graph count b

variable {left right : Value} {first second : Dual} {handle : Handle}

theorem yields_checked (name : String) (isOpen : session.IsOpen)
    (carriesFirst : first.Carries meaning session.graph count a)
    (carriesSecond : second.Carries meaning session.graph count b) :
    (liftDuals.checked name first second).Yields meaning session
      (LiftedTo meaning count a b) := by
  rw [liftDuals_checked_of_eq name
    (carriesFirst.dims_eq.trans carriesSecond.dims_eq.symm)]
  exact .pure isOpen ⟨first, second, rfl, carriesFirst, carriesSecond⟩

theorem yields_liftDuals_right (name : String) (isOpen : session.IsOpen)
    (isLeft : left.dual? = some first) (isRight : right.dual? = none)
    (found : right.scalar? = some handle)
    (carries : first.Carries meaning session.graph count a)
    (denotes : handle.Denotes meaning session.graph b) :
    (liftDuals name left right).Yields meaning session (LiftedTo meaning count a b) := by
  simp only [liftDuals, isLeft, isRight, scalar, found, demand, pure_bind,
    carries.dims_eq]
  exact (yields_lift name isOpen denotes carries.count_le).bind
    fun middle second extended lifted =>
      yields_checked name extended.isOpen (extended.carries carries) lifted

theorem yields_liftDuals_left (name : String) (isOpen : session.IsOpen)
    (isLeft : left.dual? = none) (isRight : right.dual? = some second)
    (found : left.scalar? = some handle)
    (denotes : handle.Denotes meaning session.graph a)
    (carries : second.Carries meaning session.graph count b) :
    (liftDuals name left right).Yields meaning session (LiftedTo meaning count a b) := by
  simp only [liftDuals, isLeft, isRight, scalar, found, demand, pure_bind,
    carries.dims_eq]
  exact (yields_lift name isOpen denotes carries.count_le).bind
    fun middle first extended lifted =>
      yields_checked name extended.isOpen lifted (extended.carries carries)

end

/-- Operands of which one is a dual number. -/
theorem settles_liftDuals (name : String) {left right : Value} (isOpen : session.IsOpen)
    (soundLeft : left.IsSound session.graph) (soundRight : right.IsSound session.graph)
    (lifts : (left.dual?.isSome || right.dual?.isSome) = true) :
    (liftDuals name left right).Settles session fun graph pair =>
      ∃ count, LiftedTo indifferent count () () graph pair := by
  have lifted {pairing : RecordingCall (Option (Dual × Dual))} {count : Nat}
      (yields : pairing.Yields indifferent session (LiftedTo indifferent count () ())) :
      pairing.Settles session fun graph pair =>
        ∃ count, LiftedTo indifferent count () () graph pair := by
    obtain ⟨pair, after, ran, extended, holds⟩ := yields
    exact .inl ⟨pair, after, ran, extended, count, holds⟩
  cases isLeft : left.dual? with
  | none =>
      cases isRight : right.dual? with
      | none => simp [isLeft, isRight] at lifts
      | some second =>
          cases found : left.scalar? with
          | none =>
              simp only [liftDuals, isLeft, isRight, scalar, found]
              exact settles_throw fun _ _ same => nomatch same
          | some handle =>
              exact lifted (yields_liftDuals_left name isOpen isLeft isRight found
                (soundLeft.of_scalar? found) (soundRight.of_dual? isRight).carries)
  | some first =>
      have carries := (soundLeft.of_dual? isLeft).carries
      cases isRight : right.dual? with
      | none =>
          cases found : right.scalar? with
          | none =>
              simp only [liftDuals, isLeft, isRight, scalar, found]
              exact settles_throw fun _ _ same => nomatch same
          | some handle =>
              exact lifted (yields_liftDuals_right name isOpen isLeft isRight found
                carries (soundRight.of_scalar? found))
      | some second =>
          simp only [liftDuals, isLeft, isRight]
          by_cases same : first.dims = second.dims
          · have carriesRight := (soundRight.of_dual? isRight).carries
            rw [← same] at carriesRight
            exact lifted (yields_checked name isOpen carries carriesRight)
          · rw [liftDuals.checked, if_neg same]
            exact settles_throw fun _ _ same => nomatch same

theorem settles_binary_scalars (operator : BinaryOperator) (name : String)
    {left right : Value} (isOpen : session.IsOpen)
    (soundLeft : left.IsSound session.graph) (soundRight : right.IsSound session.graph) :
    SettlesRecorded (do
      let first ← scalar (name ++ ": lhs") left
      let second ← scalar (name ++ ": rhs") right
      Value.handle <$> perform name (Recording.binary operator first second))
        session := by
  refine settles_demand fun first foundFirst => settles_demand fun second foundSecond =>
    .inl (yields_map_perform _ name ?_)
  exact (Recording.yields_binary_stored operator isOpen (soundLeft.of_scalar? foundFirst)
    (soundRight.of_scalar? foundSecond)).imp fun _ _ _ stored => stored.recorded

theorem settles_applyBinary (operator : BinaryOperator) (name : String)
    {args : List Value} (isOpen : session.IsOpen)
    (sound : ∀ value ∈ args, value.IsSound session.graph) :
    SettlesRecorded (applyBinary operator name args) session := by
  unfold applyBinary
  split
  next left right =>
    have soundLeft := sound left (by simp)
    have soundRight := sound right (by simp)
    have scalars := settles_binary_scalars operator name isOpen soundLeft soundRight
    cases Dual.binary? operator with
    | none => exact scalars
    | some operation =>
        cases lifts : left.dual?.isSome || right.dual?.isSome with
        | false =>
            obtain ⟨isLeft, isRight⟩ : left.dual? = none ∧ right.dual? = none := by
              simpa using lifts
            have unlifted : liftDuals name left right = pure none := by
              simp only [liftDuals, isLeft, isRight]
            simp only [unlifted, pure_bind]
            exact scalars
        | true =>
            refine (settles_liftDuals name isOpen soundLeft soundRight lifts).bindYields
              ?_
            rintro middle _ extended ⟨count, first, second, rfl, carriesLeft,
              carriesRight⟩
            refine yields_map_perform _ name ?_
            exact (Dual.yields_binary_carried operation extended.isOpen carriesLeft
              carriesRight).imp fun _ _ _ carries => carries.recorded
  · exact settles_throw fun _ _ same => nomatch same

/-- Arguments that are all scalars are taken as they are, and others are refused. -/
theorem scalars_eq (place : String) {args : List Value} {graph : Graph}
    (sound : ∀ value ∈ args, value.IsSound graph) :
    (∃ handles, scalars place args = pure handles ∧ handles.length = args.length ∧
      ∀ handle ∈ handles, handle.Denotes indifferent graph ()) ∨
    ∃ fault, scalars place args = throw fault ∧ fault.IsOrdinary := by
  unfold scalars
  -- The numbering of the arguments starts anywhere, for the induction.
  generalize 0 = start
  induction args generalizing start with
  | nil => exact .inl ⟨[], rfl, rfl, by simp⟩
  | cons value args induction =>
      rw [List.forall_mem_cons] at sound
      rw [List.zipIdx_cons, List.mapM_cons]
      cases found : value.scalar? with
      | none =>
          refine .inr ⟨.expected (place ++ s!": argument {start + 1}") .scalar value, ?_,
            fun _ _ same => nomatch same⟩
          simp only [scalar, found]
          rfl
      | some handle =>
          have taken : scalar (place ++ s!": argument {start + 1}") value =
              pure handle := by
            simp only [scalar, found]
            rfl
          rcases induction sound.2 (start + 1) with ⟨handles, rest, sameLength, usable⟩ |
            ⟨fault, rest, ordinary⟩
          · refine .inl ⟨handle :: handles, ?_, congrArg Nat.succ sameLength, ?_⟩
            · simp only [taken, pure_bind, rest]
            · exact List.forall_mem_cons.mpr ⟨sound.1.of_scalar? found, usable⟩
          · refine .inr ⟨fault, ?_, ordinary⟩
            simp only [taken, pure_bind, rest]
            rfl

theorem settles_scalars (place : String) {args : List Value}
    {next : List Handle → RecordingCall α} {condition : Graph → α → Prop}
    (sound : ∀ value ∈ args, value.IsSound session.graph)
    (each : ∀ handles : List Handle, handles.length = args.length →
      (∀ handle ∈ handles, handle.Denotes indifferent session.graph ()) →
      (next handles).Settles session condition) :
    (scalars place args >>= next).Settles session condition := by
  rcases scalars_eq place sound with ⟨handles, taken, sameLength, usable⟩ |
    ⟨fault, refused, ordinary⟩
  · rw [taken, pure_bind]
    exact each handles sameLength usable
  · rw [refused]
    exact settles_throw ordinary

theorem settles_applyCall (name : String) {args : List Value} (isOpen : session.IsOpen)
    (sound : ∀ value ∈ args, value.IsSound session.graph) :
    SettlesRecorded (applyCall name args) session := by
  unfold applyCall
  split
  · exact settles_throw fun _ _ same => nomatch same
  next target args =>
    refine settles_demand fun function _ =>
      settles_scalars _ (List.forall_mem_cons.mp sound).2 fun handles _ usable => ?_
    exact .inl (yields_map_perform _ name
      (yields_apply_recorded isOpen rfl usable))

theorem settles_applyTernary (name : String) {args : List Value} (isOpen : session.IsOpen)
    (sound : ∀ value ∈ args, value.IsSound session.graph) :
    SettlesRecorded (applyTernary name args) session := by
  unfold applyTernary
  split
  next three =>
    refine settles_scalars _ sound fun handles sameLength usable => ?_
    split
    · exact .inl (yields_map_perform _ name
        (yields_apply_recorded isOpen rfl usable))
    · exact settles_throw fun _ _ same => nomatch same
  · exact settles_throw fun _ _ same => nomatch same

/-- A destination that is recorded is what it was afterwards, whether it has been
overwritten or not. -/
theorem run_overwrite (name : String) {destination value : Value}
    (isOpen : session.IsOpen) (soundDestination : destination.IsSound session.graph)
    (sound : value.IsSound session.graph) :
    (∃ after, (overwrite name destination value).run session =
        ((destination, .ok ()), after) ∧ session.Extends indifferent after ∧
        destination.IsRecorded session.graph) ∨
    ∃ fault, (overwrite name destination value).run session =
      ((destination, .error fault), session) ∧ fault.IsOrdinary := by
  cases destination with
  | handle target =>
      have recorded : target.IsRecorded session.graph := soundDestination rfl
      cases found : value.scalar? with
      | none =>
          refine .inr ⟨.expected "assign: value" .scalar value, ?_,
            fun _ _ same => nomatch same⟩
          simp only [overwrite, scalar, found]
          rfl
      | some source =>
          obtain ⟨after, ran, extended⟩ :=
            Dual.runOn_assign_recorded isOpen recorded (sound.of_scalar? found)
          refine .inl ⟨after, ?_, extended, recorded⟩
          have performed : (perform name (Recording.assign target source)).run.run
              session = (.ok target, after) := by
            show (perform name (Recording.assign target source)).runOn session = _
            rw [runOn_perform, ran]
            rfl
          simp only [overwrite, scalar, found, demand, pure_bind, StateT.run_bind,
            performed]
          rfl
  | dual target =>
      have recorded : target.IsRecorded session.graph := soundDestination rfl
      cases isDual : value.dual? with
      | none =>
          refine .inr ⟨.dualSource, ?_, fun _ _ same => nomatch same⟩
          simp only [overwrite, isDual]
          rfl
      | some source =>
          rcases Dual.run_assign_recorded isOpen recorded (sound.of_dual? isDual) with
            ⟨after, ran, extended⟩ | ran
          · refine .inl ⟨after, ?_, extended, recorded⟩
            simp only [overwrite, isDual, StateT.run_bind, ran]
            rfl
          · refine .inr ⟨.recording name (.unequalDims "assign" target.dims source.dims),
              ?_, ?_⟩
            · simp only [overwrite, isDual, StateT.run_bind, ran]
              rfl
            · rintro _ _ ⟨⟩
              exact ⟨_, _, rfl⟩
  | _ => exact .inr ⟨_, rfl, fun _ _ same => nomatch same⟩

theorem settles_applyAssign (name : String) {args : List Value} (isOpen : session.IsOpen)
    (sound : ∀ value ∈ args, value.IsSound session.graph) :
    SettlesRecorded (applyAssign name args) session := by
  unfold applyAssign
  split
  next destination value =>
    rcases run_overwrite name isOpen (sound destination (by simp))
        (sound value (by simp)) with
      ⟨after, ran, extended, recorded⟩ | ⟨fault, ran, ordinary⟩
    · refine .inl ⟨destination, after, ?_, extended, recorded.mono extended.size_le⟩
      rw [runOn_bind, runOn_lift, ran]
      rfl
    · refine .inr ⟨fault, ?_, ordinary⟩
      rw [runOn_bind, runOn_lift, ran]
      rfl
  · exact settles_throw fun _ _ same => nomatch same

theorem dualDims_eq (keywords : Names Value) :
    (∃ dims : Int, dualDims keywords = pure dims ∧ 0 ≤ dims ∧
      (keywords.find? "dims" = none ∧ dims = 1 ∨
        ∃ value, keywords.find? "dims" = some value ∧ value.int? = some dims)) ∨
    ∃ fault, dualDims keywords = throw fault ∧ fault.IsOrdinary := by
  unfold dualDims
  cases given : keywords.find? "dims" with
  | none => exact .inl ⟨1, rfl, by decide, .inl ⟨rfl, rfl⟩⟩
  | some value =>
      cases read : value.int? with
      | none =>
          refine .inr ⟨.expected "dual: dims" .integer value, ?_,
            fun _ _ same => nomatch same⟩
          simp only [integer, read]
          rfl
      | some dims =>
          simp only [integer, read, demand, pure_bind]
          by_cases negative : dims < 0
          · rw [if_pos negative]
            exact .inr ⟨_, rfl, fun _ _ same => nomatch same⟩
          · rw [if_neg negative]
            exact .inl ⟨dims, rfl, by omega, .inr ⟨value, rfl, read⟩⟩

theorem dualSeed_eq (keywords : Names Value) (dims : Int) :
    (∃ seed : Option Int, dualSeed keywords dims = pure seed ∧
      ∀ slot ∈ seed, 0 ≤ slot ∧ slot < dims) ∨
    ∃ fault, dualSeed keywords dims = throw fault ∧ fault.IsOrdinary := by
  unfold dualSeed
  cases keywords.find? "seed" with
  | none => exact .inl ⟨none, rfl, by simp⟩
  | some value =>
      cases read : value.int? with
      | none =>
          refine .inr ⟨.expected "dual: seed" .integer value, ?_,
            fun _ _ same => nomatch same⟩
          simp only [integer, read]
          rfl
      | some seed =>
          simp only [integer, read, demand, pure_bind]
          by_cases outside : seed < 0 ∨ dims ≤ seed
          · rw [if_pos outside]
            exact .inr ⟨_, rfl, fun _ _ same => nomatch same⟩
          · rw [if_neg outside]
            refine .inl ⟨some seed, rfl, ?_⟩
            rintro _ ⟨⟩
            omega

theorem settles_makeDual (name : String) {value : Value} {count : Nat} {seed : Option Int}
    (isOpen : session.IsOpen) (sound : value.IsSound session.graph)
    (count_le : count ≤ Dual.maximalDims)
    (inside : ∀ slot ∈ seed, 0 ≤ slot ∧ slot < count) :
    SettlesRecorded (makeDual name value count seed) session := by
  have lifted {handle : Handle} (recorded : handle.IsRecorded session.graph) :=
    Dual.yields_ofHandle_carried isOpen ⟨recorded, recorded.denotes⟩ count_le
  unfold makeDual
  split
  next handle =>
    refine .inl (yields_map_perform _ name ?_)
    exact (lifted (sound rfl)).imp fun _ _ _ carries => carries.1.recorded
  next handle slot =>
    obtain ⟨nonnegative, below⟩ := inside slot rfl
    refine .inl (yields_map_perform _ name ?_)
    exact (Dual.yields_seed_carried (lifted (sound rfl)) (by omega)).imp
      fun _ _ _ carries => carries.recorded
  · refine settles_demand fun primal _ => .inl (yields_map_perform _ name ?_)
    exact (Dual.yields_constant_carried primal isOpen count_le).imp
      fun _ _ _ carries => carries.1.recorded
  next slot _ =>
    obtain ⟨nonnegative, below⟩ := inside slot rfl
    obtain ⟨slot, rfl⟩ := Int.eq_ofNat_of_zero_le nonnegative
    refine settles_demand fun primal _ => .inl (yields_map_perform _ name ?_)
    exact (Dual.yields_seeded_carried primal isOpen (by omega) count_le).imp
      fun _ _ _ carries => carries.recorded

theorem mem_of_mem_positional {args : List Value} {value : Value}
    (member : value ∈ (Arguments.ofList args).positional) : value ∈ args := by
  induction args using Arguments.ofList.induct with
  | case1 => exact member
  | case2 first name keyword => simp [Arguments.ofList, keyword] at member
  | case3 first keyword => simpa [Arguments.ofList, keyword] using member
  | case4 first next rest name keyword induction =>
      simp only [Arguments.ofList, keyword] at member
      exact List.mem_cons_of_mem _ (List.mem_cons_of_mem _ (induction member))
  | case5 first next rest keyword induction =>
      simp only [Arguments.ofList, keyword, List.mem_cons] at member
      rcases member with rfl | member
      · exact List.mem_cons_self
      · exact List.mem_cons_of_mem _ (induction member)

/-- The number of partials that the arguments of `dual` ask for can be allocated. -/
def FitsDims (args : List Value) : Prop :=
  ∀ value dims, (Arguments.ofList args).keywords.find? "dims" = some value →
    value.int? = some dims → dims ≤ Dual.maximalDims

theorem settles_applyDual (name : String) {args : List Value} (isOpen : session.IsOpen)
    (sound : ∀ value ∈ args, value.IsSound session.graph) (fits : FitsDims args) :
    SettlesRecorded (applyDual name args) session := by
  unfold applyDual
  simp only
  split
  next value single =>
    have soundValue : value.IsSound session.graph :=
      sound value (mem_of_mem_positional (by simp [single]))
    rcases dualDims_eq (Arguments.ofList args).keywords with
      ⟨dims, demanded, nonnegative, given⟩ | ⟨fault, refused, ordinary⟩
    · have dims_le : dims ≤ Dual.maximalDims := by
        rcases given with ⟨-, rfl⟩ | ⟨value, found, read⟩
        · decide
        · exact fits value dims found read
      obtain ⟨count, rfl⟩ := Int.eq_ofNat_of_zero_le nonnegative
      rw [demanded, pure_bind]
      rcases dualSeed_eq (Arguments.ofList args).keywords count with
        ⟨seed, demanded, inside⟩ | ⟨fault, refused, ordinary⟩
      · rw [demanded, pure_bind]
        exact settles_makeDual name isOpen soundValue dims_le inside
      · rw [refused]
        exact settles_throw ordinary
    · rw [refused]
      exact settles_throw ordinary
  · exact settles_throw fun _ _ same => nomatch same

theorem settles_applyPrimal {args : List Value} (isOpen : session.IsOpen)
    (sound : ∀ value ∈ args, value.IsSound session.graph) :
    SettlesRecorded (applyPrimal args) session := by
  unfold applyPrimal
  split
  next value =>
    cases isDual : value.dual? with
    | none => exact settles_throw fun _ _ same => nomatch same
    | some number =>
        exact .inl (.pure isOpen ((sound value (by simp)).of_dual? isDual).primal)
  · exact settles_throw fun _ _ same => nomatch same

theorem settles_applyPartial {args : List Value} (isOpen : session.IsOpen)
    (sound : ∀ value ∈ args, value.IsSound session.graph) :
    SettlesRecorded (applyPartial args) session := by
  unfold applyPartial
  split
  next value index =>
    cases isDual : value.dual? with
    | none => exact settles_throw fun _ _ same => nomatch same
    | some number =>
        have recorded := (sound value (by simp)).of_dual? isDual
        refine settles_demand fun slot _ => ?_
        cases found : number.partialAt slot with
        | error fault => exact settles_throw fun _ _ same => nomatch same
        | ok handle =>
            refine .inl (.pure isOpen (recorded.partials handle ?_))
            exact Dual.mem_partials_of_partialAt found
  · exact settles_throw fun _ _ same => nomatch same

theorem settles_apply (function : Builtin) (name : String) {args : List Value}
    (isOpen : session.IsOpen) (sound : ∀ value ∈ args, value.IsSound session.graph)
    (fits : function = .dual → FitsDims args) :
    SettlesRecorded (function.apply name args) session := by
  cases function with
  | constant => exact settles_applyConstant name args isOpen
  | param => exact settles_applyParam name args isOpen
  | output => exact settles_applyOutput name isOpen sound
  | unary operator => exact settles_applyUnary operator name isOpen sound
  | binary operator => exact settles_applyBinary operator name isOpen sound
  | call => exact settles_applyCall name isOpen sound
  | ternary => exact settles_applyTernary name isOpen sound
  | assign => exact settles_applyAssign name isOpen sound
  | dual => exact settles_applyDual name isOpen sound (fits rfl)
  | primal => exact settles_applyPrimal isOpen sound
  | partialAt => exact settles_applyPartial isOpen sound
  | nop =>
      exact .inl (yields_map_perform _ name
        (yields_apply_recorded isOpen rfl (by simp)))

/-- Without room for the partials the call fails, though the primal may have been
recorded. -/
theorem fails_makeDual (name : String) (value : Value) {dims : Int} (seed : Option Int)
    (isOpen : session.IsOpen) (large : Dual.maximalDims < dims) :
    (makeDual name value dims seed).Fails session := by
  have lifted (primal : Handle) : Dual.ofHandle primal dims = throw .dimsOutOfRange := by
    rw [Dual.ofHandle, Dual.zeroPartials_of_large large]
    rfl
  have counted (primal : Float) : ∃ fault after,
      (Dual.constant primal dims).runOn session = (.error fault, after) ∧
        session.Extends indifferent after := by
    obtain ⟨handle, after, ran, extended, -⟩ :=
      Recording.yields_constant_stored primal isOpen
    refine ⟨.dimsOutOfRange, after, ?_, extended⟩
    rw [Dual.constant, Recording.assign_unset_literal, Recording.runOn_bind_of_ok ran,
      Dual.zeroPartials_of_large large]
    rfl
  unfold makeDual
  split
  · exact fails_map_perform _ name (by rw [lifted]; rfl) (.refl isOpen)
  · exact fails_map_perform _ name (by rw [lifted]; rfl) (.refl isOpen)
  · refine fails_demand isOpen fun primal => ?_
    obtain ⟨fault, after, ran, extended⟩ := counted primal
    exact fails_map_perform _ name ran extended
  next slot _ =>
    refine fails_demand isOpen fun primal => ?_
    by_cases outside : slot < 0 ∨ dims ≤ slot
    · exact fails_map_perform _ name (by rw [Dual.seeded, if_pos outside]; rfl)
        (.refl isOpen)
    · obtain ⟨fault, after, ran, extended⟩ := counted primal
      have unseeded : (Dual.seeded primal slot dims).runOn session =
          (.error fault, after) := by
        rw [Dual.seeded, if_neg outside, Recording.runOn_bind, ran]
      exact fails_map_perform _ name unseeded extended

theorem fails_applyDual (name : String) {args : List Value} (isOpen : session.IsOpen)
    (large : ¬FitsDims args) : (applyDual name args).Fails session := by
  unfold FitsDims at large
  push Not at large
  obtain ⟨value, dims, found, read, large⟩ := large
  unfold applyDual
  simp only
  split
  next argument single =>
    rcases dualDims_eq (Arguments.ofList args).keywords with
      ⟨_, demanded, -, ⟨absent, -⟩ | ⟨_, given, meant⟩⟩ | ⟨fault, refused, ordinary⟩
    · rw [found] at absent
      cases absent
    · rw [found] at given
      cases given
      rw [read] at meant
      cases meant
      rw [demanded, pure_bind]
      rcases dualSeed_eq (Arguments.ofList args).keywords dims with
        ⟨seed, demanded, -⟩ | ⟨fault, refused, -⟩
      · rw [demanded, pure_bind]
        exact fails_makeDual name argument seed isOpen large
      · rw [refused]
        exact ⟨fault, session, rfl, .refl isOpen⟩
    · rw [refused]
      exact ⟨fault, session, rfl, .refl isOpen⟩
  · exact ⟨_, session, rfl, .refl isOpen⟩

end Builtin

/-- An argument of a call: what an earlier call has returned, or a value that is no
expression. -/
inductive Argument where
  | earlier (place : Nat)
  | other (value : Value) (plain : value.isExpression = false)

/-- A call of a recording function under the name that it goes by. -/
structure Call where
  function : Builtin
  name : String
  args : List Argument

/-- A session with the expressions that calls have returned. -/
structure Ledger where
  session : Session
  values : List Value

namespace Argument

/-- What the argument stands for; beyond the last value it is `nil`. -/
def value (values : List Value) : Argument → Value
  | earlier place => values.getD place .nil
  | other value _ => value

theorem isSound_value {graph : Graph} {values : List Value}
    (recorded : ∀ value ∈ values, value.IsRecorded graph) (argument : Argument) :
    (argument.value values).IsSound graph := by
  cases argument with
  | other value plain =>
      intro expression
      exact absurd (expression.symm.trans plain) (by decide)
  | earlier place =>
      intro expression
      rw [value, List.getD_eq_getElem?_getD] at expression ⊢
      cases found : values[place]? with
      | none =>
          rw [found] at expression
          cases expression
      | some value => exact recorded value (List.mem_of_getElem? found)

end Argument

def Call.arguments (call : Call) (values : List Value) : List Value :=
  call.args.map (Argument.value values)

namespace Ledger

def start (label : String) : Ledger :=
  ⟨.fresh label, []⟩

/-- Carries out a call.  An assignment to an earlier value overwrites that in place and
returns it; any other call returns a new value. -/
def perform (ledger : Ledger) (call : Call) : Except CallFault Value × Ledger :=
  match call.function, call.args with
  | .assign, [.earlier place, source] =>
      let ((assigned, outcome), session) :=
        (Builtin.overwrite call.name ((Argument.earlier place).value ledger.values)
          (source.value ledger.values)).run ledger.session
      (outcome.map fun _ => assigned, ⟨session, ledger.values.set place assigned⟩)
  | _, _ =>
      match (call.function.apply call.name (call.arguments ledger.values)).runOn
        ledger.session with
      | (.ok value, session) => (.ok value, ⟨session, ledger.values ++ [value]⟩)
      | (.error fault, session) => (.error fault, ⟨session, ledger.values⟩)

def after (ledger : Ledger) (calls : List Call) : Ledger :=
  calls.foldl (fun ledger call => (ledger.perform call).2) ledger

/-- The session records, and every expression there is belongs to it. -/
structure IsSound (ledger : Ledger) : Prop where
  isOpen : ledger.session.IsOpen
  recorded : ∀ value ∈ ledger.values, value.IsRecorded ledger.session.graph

variable {ledger : Ledger}

theorem isSound_start (label : String) : (start label).IsSound :=
  ⟨⟨rfl, rfl⟩, by simp [start]⟩

theorem IsSound.extend {session : Session} (sound : ledger.IsSound)
    (extended : ledger.session.Extends indifferent session) :
    IsSound ⟨session, ledger.values⟩ where
  isOpen := extended.isOpen
  recorded := fun value member => (sound.recorded value member).mono extended.size_le

theorem IsSound.returned {session : Session} {value : Value} (sound : ledger.IsSound)
    (extended : ledger.session.Extends indifferent session)
    (recorded : value.IsRecorded session.graph) :
    IsSound ⟨session, ledger.values ++ [value]⟩ where
  isOpen := extended.isOpen
  recorded := by
    intro other member
    rcases List.mem_append.mp member with member | member
    · exact (sound.recorded other member).mono extended.size_le
    · rw [List.mem_singleton.mp member]
      exact recorded

/-- What a call can do: it returns an expression and leaves those there are as they were,
or it fails and leaves everything as it was.  The one exception is a dual number whose
partials cannot be allocated. -/
inductive Answers (ledger : Ledger) (call : Call) : Except CallFault Value × Ledger → Prop
  | returned {value : Value} {next : Ledger} (sound : next.IsSound)
      (recorded : value.IsRecorded next.session.graph)
      (kept : ledger.values <+: next.values) : Answers ledger call (.ok value, next)
  | refused {fault : CallFault} (ordinary : fault.IsOrdinary) :
      Answers ledger call (.error fault, ledger)
  | overflowed {fault : CallFault} {next : Ledger} (sound : next.IsSound)
      (overflows : call.function = .dual)
      (large : ¬Builtin.FitsDims (call.arguments ledger.values)) :
      Answers ledger call (.error fault, next)

theorem set_value_earlier (values : List Value) (place : Nat) :
    values.set place ((Argument.earlier place).value values) = values := by
  rw [Argument.value, List.getD_eq_getElem?_getD]
  cases found : values[place]? with
  | none => exact List.set_eq_of_length_le (List.getElem?_eq_none_iff.mp found)
  | some value =>
      obtain ⟨inside, rfl⟩ := List.getElem?_eq_some_iff.mp found
      exact List.set_getElem_self inside

theorem answers_apply (sound : ledger.IsSound) (call : Call) :
    ledger.Answers call
      (match (call.function.apply call.name (call.arguments ledger.values)).runOn
        ledger.session with
      | (.ok value, session) => (.ok value, ⟨session, ledger.values ++ [value]⟩)
      | (.error fault, session) => (.error fault, ⟨session, ledger.values⟩)) := by
  have soundArguments : ∀ value ∈ call.arguments ledger.values,
      value.IsSound ledger.session.graph := by
    intro value member
    obtain ⟨argument, -, rfl⟩ := List.mem_map.mp member
    exact argument.isSound_value sound.recorded
  by_cases fits : call.function = .dual → Builtin.FitsDims (call.arguments ledger.values)
  · rcases call.function.settles_apply call.name sound.isOpen soundArguments fits with
      ⟨value, after, ran, extended, recorded⟩ | ⟨fault, ran, ordinary⟩
    · rw [ran]
      exact .returned (sound.returned extended recorded) recorded (List.prefix_append _ _)
    · rw [ran]
      exact .refused ordinary
  · obtain ⟨overflows, large⟩ := Classical.not_imp.mp fits
    obtain ⟨fault, after, ran, extended⟩ :=
      Builtin.fails_applyDual call.name sound.isOpen large
    rw [overflows, show (Builtin.dual.apply _ _).runOn _ = _ from ran]
    exact .overflowed (sound.extend extended) overflows large

theorem answers_perform (sound : ledger.IsSound) (call : Call) :
    ledger.Answers call (ledger.perform call) := by
  unfold perform
  split
  next place source _ _ =>
    have soundValue (argument : Argument) := argument.isSound_value sound.recorded
    rcases Builtin.run_overwrite call.name sound.isOpen (soundValue (.earlier place))
        (soundValue source) with
      ⟨after, ran, extended, recorded⟩ | ⟨fault, ran, ordinary⟩
    · rw [ran]
      simp only [set_value_earlier]
      exact .returned (sound.extend extended) (recorded.mono extended.size_le)
        List.prefix_rfl
    · rw [ran]
      simp only [set_value_earlier]
      exact .refused ordinary
  · exact answers_apply sound call

theorem IsSound.perform (sound : ledger.IsSound) (call : Call) :
    (ledger.perform call).2.IsSound := by
  cases answers : ledger.perform call with
  | mk outcome next =>
      have can := answers_perform sound call
      rw [answers] at can
      cases can with
      | returned soundNext => exact soundNext
      | refused => exact sound
      | overflowed soundNext => exact soundNext

theorem IsSound.after (sound : ledger.IsSound) (calls : List Call) :
    (ledger.after calls).IsSound := by
  induction calls generalizing ledger with
  | nil => exact sound
  | cons call calls induction => exact induction (sound.perform call)

/-- Whatever has been called before, every expression names nodes of the session, which
records.  A call that asks for no more partials than can be allocated returns another such
expression and changes none of the others, or it fails by a fault of its arguments, with
nothing recorded and nothing changed. -/
theorem calls_fail_atomically (label : String) (calls : List Call) (call : Call)
    (fits : call.function = .dual →
      Builtin.FitsDims (call.arguments ((start label).after calls).values)) :
    let ledger := (start label).after calls
    ledger.IsSound ∧
      match ledger.perform call with
      | (.ok value, next) =>
          value.IsRecorded next.session.graph ∧ ledger.values <+: next.values
      | (.error fault, next) => next = ledger ∧ fault.IsOrdinary := by
  intro ledger
  have sound := (isSound_start label).after calls
  refine ⟨sound, ?_⟩
  have can := answers_perform sound call
  cases answer : ledger.perform call with
  | mk outcome next =>
      rw [answer] at can
      cases can with
      | returned _ recorded kept => exact ⟨recorded, kept⟩
      | refused ordinary => exact ⟨rfl, ordinary⟩
      | overflowed _ overflows large => exact absurd (fits overflows) large

/-- A seeded dual number, a parameter, their sum, and an assignment that is refused. -/
def mixedCalls : List Call :=
  [⟨.dual, "dual", [.other (.float 2.0) rfl, .other (.text "__kw_seed") rfl,
      .other (.int 0) rfl, .other (.text "__kw_dims") rfl, .other (.int 2) rfl]⟩,
    ⟨.param, "param", [.other (.text "x") rfl]⟩,
    ⟨.binary .add, "add", [.earlier 0, .earlier 1]⟩,
    ⟨.assign, "assign", [.earlier 0, .earlier 1]⟩]

/-- Lifts the parameter to three partials. -/
def liftingCall : Call :=
  ⟨.dual, "dual", [.earlier 1, .other (.text "__kw_dims") rfl, .other (.int 3) rfl]⟩

theorem lifting_after_mixed_calls :
    let ledger := (start "mixed").after mixedCalls
    Builtin.FitsDims (liftingCall.arguments ledger.values) ∧ ledger.IsSound ∧
      match ledger.perform liftingCall with
      | (.ok value, next) =>
          value.IsRecorded next.session.graph ∧ ledger.values <+: next.values
      | (.error fault, next) => next = ledger ∧ fault.IsOrdinary := by
  intro ledger
  have keyword : (Arguments.ofList (liftingCall.arguments ledger.values)).keywords =
      [("dims", .int 3)] := by rfl
  have fits : Builtin.FitsDims (liftingCall.arguments ledger.values) := by
    intro value dims found read
    rw [keyword] at found
    cases found
    cases read
    decide
  exact ⟨fits, calls_fail_atomically "mixed" mixedCalls liftingCall fun _ => fits⟩

end Ledger

end CostTape.Script
