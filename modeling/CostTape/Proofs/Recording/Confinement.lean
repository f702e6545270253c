import CostTape.Proofs.Recording.Denotation
import CostTape.Dual.Operator

/-! Whatever records keeps the session open, records nodes of listed kinds and does not
look at the label. -/

namespace CostTape

namespace Session

def relabel (session : Session) (label : String) : Session :=
  { session with label }

@[simp] theorem isRecording_relabel (session : Session) (label : String) :
    (session.relabel label).isRecording = session.isRecording := rfl

@[simp] theorem graph_relabel (session : Session) (label : String) :
    (session.relabel label).graph = session.graph := rfl

/-- Nodes of listed kinds are recorded and nothing else happens to the session, whose
label plays no part in what happens. -/
structure Confined (step : StateM Session α) : Prop where
  grows : ∀ session : Session,
    session.Grows (fun node => node.kind.isListed = true) (step.run session).2
  relabel : ∀ (session : Session) (label : String),
    step.run (session.relabel label) =
      ((step.run session).1, (step.run session).2.relabel label)

namespace Confined

theorem isOpen {step : StateM Session α} (confined : Confined step) (session : Session)
    (isOpen : session.IsOpen) : (step.run session).2.IsOpen :=
  (confined.grows session).isOpen isOpen

theorem pure (value : α) : Confined (pure value) :=
  ⟨fun _ => .refl, fun _ _ => rfl⟩

theorem bind {step : StateM Session α} {next : α → StateM Session β}
    (first : Confined step) (second : ∀ value, Confined (next value)) :
    Confined (step >>= next) where
  grows := by
    intro session
    rw [StateT.run_bind]
    exact (first.grows session).trans ((second _).grows _)
  relabel := by
    intro session label
    rw [StateT.run_bind, StateT.run_bind, first.relabel]
    exact (second _).relabel _ label

variable {ε : Type} {step : ExceptT ε (StateM Session) α}

theorem exceptPure (value : α) :
    Confined (Pure.pure value : ExceptT ε (StateM Session) α).run :=
  pure (Except.ok value)

theorem exceptThrow (fault : ε) :
    Confined (throw fault : ExceptT ε (StateM Session) α).run :=
  pure (Except.error fault)

theorem exceptBind {next : α → ExceptT ε (StateM Session) β}
    (first : Confined step.run) (second : ∀ value, Confined (next value).run) :
    Confined (step >>= next).run := by
  rw [ExceptT.run_bind]
  refine first.bind fun outcome => ?_
  cases outcome with
  | ok value => exact second value
  | error fault => exact pure (Except.error fault)

theorem exceptMap (convert : α → β) (confined : Confined step.run) :
    Confined (convert <$> step).run := by
  rw [map_eq_pure_bind]
  exact confined.exceptBind fun _ => exceptPure _

theorem exceptMapM {step : α → ExceptT ε (StateM Session) β} (items : List α)
    (each : ∀ item, Confined (step item).run) : Confined (items.mapM step).run := by
  induction items with
  | nil => exact exceptPure []
  | cons item items induction =>
      rw [List.mapM_cons]
      exact (each item).exceptBind fun _ => induction.exceptBind fun _ => exceptPure _

end Confined

end Session

open Session

namespace Recording

theorem confined_record {node : Node} (listed : node.kind.isListed = true) :
    Confined (record node).run := by
  constructor
  · exact Appends.record listed
  · intro session label
    show (record node).runOn (session.relabel label) =
      (((record node).runOn session).1, ((record node).runOn session).2.relabel label)
    rw [runOn_record, runOn_record, isRecording_relabel, graph_relabel]
    cases session.isRecording with
    | false => rfl
    | true => cases session.graph.append node <;> rfl

theorem confined_constant (value : Float) : Confined (constant value).run :=
  .exceptMap _ (confined_record rfl)

theorem confined_operand (handle : Handle) : Confined (operand handle).run := by
  cases handle with
  | unset => exact .exceptThrow _
  | bound id => exact .exceptPure _
  | literal value => exact .exceptMap _ (confined_constant value)

theorem confined_apply {kind : Kind} (listed : kind.isListed = true) (symbol : String)
    (operands : List Handle) : Confined (apply kind symbol operands).run :=
  (Confined.exceptMapM operands confined_operand).exceptBind fun _ =>
    .exceptMap _ (confined_record listed)

theorem confined_unary (operator : UnaryOperator) (value : Handle) :
    Confined (unary operator value).run :=
  confined_apply (by cases operator <;> rfl) _ _

theorem confined_binary (operator : BinaryOperator) (left right : Handle) :
    Confined (binary operator left right).run :=
  confined_apply (by cases operator <;> rfl) _ _

theorem confined_assign (destination source : Handle) :
    Confined (assign destination source).run := by
  refine (confined_operand source).exceptBind fun arg => ?_
  cases destination with
  | bound target => exact (confined_record rfl).exceptBind fun _ => .exceptPure _
  | unset => exact .exceptPure _
  | literal value => exact .exceptPure _

end Recording

namespace Dual

open Recording

theorem confined_zeroPartials (dims : Int) : Confined (zeroPartials dims).run := by
  unfold zeroPartials
  split
  · exact .exceptMapM _ fun _ => confined_assign _ _
  · exact .exceptThrow _

theorem confined_constant (value : Float) (dims : Int) :
    Confined (constant value dims).run :=
  (confined_assign _ _).exceptBind fun _ => .exceptMap _ (confined_zeroPartials dims)

theorem confined_ofHandle (primal : Handle) (dims : Int) :
    Confined (ofHandle primal dims).run :=
  .exceptMap _ (confined_zeroPartials dims)

theorem confined_seed (dual : Dual) (slot : Nat) : Confined (dual.seed slot).run := by
  unfold seed
  split
  · exact (confined_assign _ _).exceptBind fun _ => .exceptPure _
  · exact .exceptThrow _

theorem confined_seeded (value : Float) (slot dims : Int) :
    Confined (seeded value slot dims).run := by
  unfold seeded
  split
  · exact .exceptThrow _
  · exact (confined_constant value dims).exceptBind fun dual => confined_seed dual _

theorem confined_demandEqualDims (operation : String) (left right : Dual) :
    Confined (demandEqualDims operation left right).run := by
  unfold demandEqualDims
  split
  · exact .exceptPure _
  · exact .exceptThrow _

theorem confined_zipWith (operator : BinaryOperator) (left right : Dual) :
    Confined (zipWith operator left right).run :=
  (confined_binary _ _ _).exceptBind fun _ =>
    .exceptMap _ (.exceptMapM _ fun (_, _) => confined_binary _ _ _)

theorem confined_chain (primal derivative : Handle) (inner : Dual) :
    Confined (chain primal derivative inner).run :=
  .exceptMap _ (.exceptMapM _ fun _ => confined_binary _ _ _)

theorem confined_unary_operation (operation : UnaryOperation) (dual : Dual) :
    Confined (operation.apply dual).run := by
  cases operation with
  | neg =>
      exact (confined_unary _ _).exceptBind fun _ =>
        .exceptMap _ (.exceptMapM _ fun _ => confined_unary _ _)
  | sin =>
      exact (confined_unary _ _).exceptBind fun _ =>
        (confined_unary _ _).exceptBind fun _ => confined_chain _ _ _
  | cos =>
      exact (confined_unary _ _).exceptBind fun _ =>
        (confined_unary _ _).exceptBind fun _ =>
          (confined_unary _ _).exceptBind fun _ => confined_chain _ _ _
  | sqrt =>
      exact (confined_unary _ _).exceptBind fun _ =>
        (confined_binary _ _ _).exceptBind fun _ =>
          (confined_binary _ _ _).exceptBind fun _ => confined_chain _ _ _
  | exp => exact (confined_unary _ _).exceptBind fun _ => confined_chain _ _ _
  | log =>
      exact (confined_unary _ _).exceptBind fun _ =>
        (confined_binary _ _ _).exceptBind fun _ => confined_chain _ _ _

theorem confined_binary_operation (operation : BinaryOperation) (left right : Dual) :
    Confined (operation.apply left right).run := by
  cases operation with
  | add =>
      exact (confined_demandEqualDims _ _ _).exceptBind fun _ => confined_zipWith _ _ _
  | sub =>
      exact (confined_demandEqualDims _ _ _).exceptBind fun _ => confined_zipWith _ _ _
  | mul =>
      refine (confined_demandEqualDims _ _ _).exceptBind fun _ =>
        (confined_binary _ _ _).exceptBind fun _ =>
          .exceptMap _ (.exceptMapM _ fun (_, _) => ?_)
      exact (confined_binary _ _ _).exceptBind fun _ =>
        (confined_binary _ _ _).exceptBind fun _ => confined_binary _ _ _
  | div =>
      refine (confined_demandEqualDims _ _ _).exceptBind fun _ =>
        (confined_binary _ _ _).exceptBind fun _ =>
          (confined_binary _ _ _).exceptBind fun _ =>
            .exceptMap _ (.exceptMapM _ fun (_, _) => ?_)
      exact (confined_binary _ _ _).exceptBind fun _ =>
        (confined_binary _ _ _).exceptBind fun _ => confined_binary _ _ _

theorem confined_assignEach (destinations sources : List Handle) :
    Confined (assignEach destinations sources) := by
  induction destinations generalizing sources with
  | nil => cases sources <;> exact .pure _
  | cons destination destinations induction =>
      cases sources with
      | nil => exact .pure _
      | cons source sources =>
          refine (Recording.confined_assign destination source).bind fun outcome => ?_
          cases outcome with
          | error fault => exact .pure _
          | ok assigned => exact (induction sources).bind fun _ => .pure _

theorem confined_assign (destination source : Dual) :
    Confined (destination.assign source) := by
  unfold assign
  simp only
  split
  · exact .pure _
  · exact (confined_assignEach _ _).bind fun _ => .pure _

end Dual

end CostTape
